import Mathlib
import OpenMinion.PythonText
import OpenMinion.TextSubstitutions

/-!
# Redaction of free text

`redact_sensitive_text` replaces OpenAI keys, bearer tokens and `name=value` credentials, in this
order. A redacted text is not changed by a second redaction: no pattern goes on with the mark.
-/
namespace OpenMinion.TextRedactions
open PythonText TextSubstitutions

/-- `_REDACTED` -/
def mark : List Char := "[REDACTED]".toList

/-- The letter for which `re.IGNORECASE` takes a character, where the pattern has an ASCII letter. -/
def foldCase (c : Char) : Char :=
  if c = '\u017f' then 's' else if c = '\u212a' then 'k' else if c = '\u0130' ∨ c = '\u0131' then 'i' else c.toLower

/-- The characters of `\w`. -/
structure WordCharacters where
  isWord : Char → Bool
  ascii : ∀ c : Char, c.toNat < 128 → isWord c = (c.isAlphanum || c == '_')
  space : ∀ c, isSpace c = true → isWord c = false
  folded : ∀ c ∈ ['\u017f', '\u212a', '\u0130', '\u0131'], isWord c = true

/-- `[A-Za-z0-9_-]` -/
def isKeyChar (c : Char) : Bool := c.isAlphanum || c == '_' || c == '-'

/-- `[A-Za-z0-9._-]` without regard to case. -/
def isTokenChar (c : Char) : Bool := (foldCase c).isAlphanum || c == '.' || c == '_' || c == '-'

/-- `[^\s,;]` -/
def isValueChar (c : Char) : Bool := !isSpace c && c != ',' && c != ';'

variable (w : WordCharacters)

/-- `_OPENAI_KEY_RE` -/
def openAiKey (s : List Char) : Option (ℕ × List Char) :=
  match s with
  | 's' :: 'k' :: '-' :: c :: cs =>
    if c.isAlphanum then (longestRun w.isWord isKeyChar 16 (w.isWord c) cs).map fun n => (n + 4, mark) else none
  | _ => none

def matchLiteral : List Char → List Char → Option (List Char)
  | [], s => some s
  | _ :: _, [] => none
  | l :: literal, c :: cs => if foldCase c = l then matchLiteral literal cs else none

/-- `_BEARER_TOKEN_RE`; the characters of a token are no spaces, so `\s+` takes all of them. -/
def bearerToken (s : List Char) : Option (ℕ × List Char) :=
  match matchLiteral "bearer".toList s with
  | none => none
  | some rest =>
    let spaces := rest.takeWhile isSpace
    if spaces = [] then none
    else (longestRun w.isWord isTokenChar 10 false (rest.dropWhile isSpace)).map fun n =>
      (6 + spaces.length + n, "Bearer ".toList ++ mark)

/-- The names that `_GENERIC_CREDENTIAL_RE` takes. -/
def credentialNames : List (List Char) :=
  ["api_key".toList, "api-key".toList, "apikey".toList, "token".toList, "secret".toList, "password".toList]

/-- `_GENERIC_CREDENTIAL_RE` for one of the names; no value starts with a space, so `\s*` takes all of them. -/
def credentialAt (s name : List Char) : Option (ℕ × List Char) :=
  match matchLiteral name s with
  | none => none
  | some rest =>
    if startsWord w.isWord rest then none
    else match rest.dropWhile isSpace with
      | [] => none
      | sign :: rest' =>
        let value := (rest'.dropWhile isSpace).takeWhile isValueChar
        if (sign = ':' ∨ sign = '=') ∧ value ≠ [] then
          some (name.length + (rest.takeWhile isSpace).length + 1 + (rest'.takeWhile isSpace).length + value.length,
            s.take name.length ++ '=' :: mark)
        else none

/-- `_GENERIC_CREDENTIAL_RE` -/
def credential (s : List Char) : Option (ℕ × List Char) := credentialNames.findSome? (credentialAt w s)

def redactChars (s : List Char) : List Char × ℕ :=
  let keys := substitute w.isWord (openAiKey w) 0 false s
  let tokens := substitute w.isWord (bearerToken w) 0 false keys.1
  let credentials := substitute w.isWord (credential w) 0 false tokens.1
  (credentials.1, keys.2 + tokens.2 + credentials.2)

def redactSensitiveText (text : String) : String × ℕ :=
  if text = "" then (text, 0) else (String.ofList (redactChars w text.toList).1, (redactChars w text.toList).2)

variable {w} {c : Char} {s rest out m replacement : List Char} {k n : ℕ}

private theorem foldCase_eq : c ∈ ['\u017f', '\u212a', '\u0130', '\u0131'] ∨ foldCase c = c.toLower := by
  simp only [foldCase]
  split
  · simp [*]
  · split
    · simp [*]
    · split
      · next h => obtain rfl | rfl := h <;> simp
      · exact .inr rfl

private theorem isAlphanum_of_toLower (h : c.toLower.isAlphanum = true) : c.isAlphanum = true := by
  by_cases hupper : c.isUpper = true
  · simp [Char.isAlphanum, Char.isAlpha, hupper]
  · rw [Char.isUpper, decide_eq_true_eq] at hupper
    rwa [Char.toLower, dif_neg hupper] at h

private theorem toNat_lt_of_isAlphanum (h : c.isAlphanum = true) : c.toNat < 128 := by
  simp only [Char.isAlphanum, Char.isAlpha, Char.isUpper, Char.isLower, Char.isDigit, ge_iff_le, Bool.or_eq_true,
    decide_eq_true_eq, Bool.and_eq_true] at h
  simp only [UInt32.le_iff_toNat_le] at h
  simp only [Char.toNat]
  grind

theorem WordCharacters.isWord_of_isAlphanum (h : c.isAlphanum = true) : w.isWord c = true := by
  rw [w.ascii c (toNat_lt_of_isAlphanum h), h]
  rfl

theorem WordCharacters.isWord_of_foldCase (h : (foldCase c).isAlphanum = true) : w.isWord c = true := by
  obtain hextra | heq := @foldCase_eq c
  · exact w.folded c hextra
  · rw [heq] at h
    exact w.isWord_of_isAlphanum (isAlphanum_of_toLower h)

theorem isSpace_of_isWord (h : w.isWord c = true) : isSpace c = false := by
  by_contra hspace
  rw [Bool.not_eq_false] at hspace
  rw [w.space c hspace] at h
  cases h

/-- The letters of `bearer` are taken for no other characters. -/
theorem isAlphanum_of_foldCase (h : foldCase c ∈ "bearer".toList) : c.isAlphanum = true := by
  obtain hextra | heq := @foldCase_eq c
  · simp only [List.mem_cons, List.not_mem_nil, or_false] at hextra
    obtain rfl | rfl | rfl | rfl := hextra <;> exact absurd h (by decide)
  · refine isAlphanum_of_toLower ?_
    rw [heq] at h
    have hall : ∀ d ∈ "bearer".toList, d.isAlphanum = true := List.all_eq_true.mp (by decide)
    exact hall _ h

theorem isSpace_of_isTokenChar (w : WordCharacters) (h : isTokenChar c = true) : isSpace c = false := by
  simp only [isTokenChar, Bool.or_eq_true, beq_iff_eq] at h
  obtain ((h | rfl) | rfl) | rfl := h
  · exact isSpace_of_isWord (w.isWord_of_foldCase h)
  all_goals decide

/-- A key with `n` characters behind the first one. -/
def keyKinds (n : ℕ) : List (Char → Bool) :=
  (· == 's') :: (· == 'k') :: (· == '-') :: Char.isAlphanum :: List.replicate n isKeyChar

def IsKey (kinds : List (Char → Bool)) : Prop := ∃ n, 16 ≤ n ∧ kinds = keyKinds n

theorem openAiKey_eq_some (h : openAiKey w s = some (n, replacement)) :
    replacement = mark ∧ ∃ kinds, IsKey kinds ∧ kinds.length = n ∧ reads w.isWord kinds false s = true := by
  unfold openAiKey at h
  split at h
  · next c cs =>
    split at h
    · next halnum =>
      obtain ⟨k, hrun, heq⟩ := Option.map_eq_some_iff.mp h
      cases heq
      obtain ⟨hk, hreads⟩ := longestRun_eq_some hrun
      refine ⟨rfl, keyKinds k, ⟨k, hk, rfl⟩, by simp [keyKinds], ?_⟩
      simp [keyKinds, halnum, hreads]
    · cases h
  · cases h

theorem start_of_isKey (h : Matches w.isWord IsKey s) : ∃ rest, s = 's' :: 'k' :: rest := by
  obtain ⟨kinds, ⟨k, -, rfl⟩, hreads⟩ := h
  obtain ⟨m, rest, rfl, hkinds, -⟩ := reads_eq_true hreads
  cases hkinds with
  | cons hs hkinds => cases hkinds with
    | @cons _ b _ m hk hkinds =>
      rw [eq_of_beq hs, eq_of_beq hk]
      exact ⟨m ++ rest, rfl⟩

theorem openAiKey_eq_none (h : openAiKey w s = none) : ¬Matches w.isWord IsKey s := by
  rintro ⟨kinds, ⟨k, hk, rfl⟩, hreads⟩
  obtain ⟨m, rest, rfl, hkinds, -⟩ := reads_eq_true hreads
  cases hkinds with
  | cons hs hkinds => cases hkinds with
    | cons hk' hkinds => cases hkinds with
      | cons hdash hkinds => cases hkinds with
        | cons halnum hkinds =>
          rw [eq_of_beq hs, eq_of_beq hk', eq_of_beq hdash] at h hreads
          simp only [List.cons_append, keyKinds, reads_cons, Bool.and_eq_true] at hreads
          simp only [openAiKey, List.cons_append, halnum, ↓reduceIte, Option.map_eq_none_iff] at h
          rw [longestRun_eq_none h hk] at hreads
          exact Bool.false_ne_true hreads.2.2.2.2

theorem startsWord_of_isKey (s : List Char) (h : Matches w.isWord IsKey s) : startsWord w.isWord s = true := by
  obtain ⟨rest, rfl⟩ := start_of_isKey h
  exact w.isWord_of_isAlphanum (by decide)

theorem anchored_openAiKey : Anchored w.isWord (openAiKey w) := by
  refine anchored_of_reads startsWord_of_isKey ?_ fun s n replacement h => (openAiKey_eq_some h).2
  rintro kinds ⟨k, -, rfl⟩
  exact List.cons_ne_nil _ _

theorem openAiKey_of_clean (s : List Char) (h : ¬Matches w.isWord IsKey s) : openAiKey w s = none :=
  eq_none_of_not_matches (fun _ _ hfind => (openAiKey_eq_some hfind).2) h

def literalKinds (literal : List Char) : List (Char → Bool) := literal.map fun l c => foldCase c == l

theorem forall₂_literalKinds {literal : List Char} :
    List.Forall₂ (fun kind c => kind c = true) (literalKinds literal) m ↔ m.map foldCase = literal := by
  induction literal generalizing m with
  | nil => simp [literalKinds]
  | cons l literal ih =>
    cases m with
    | nil => simp [literalKinds]
    | cons c m =>
      rw [literalKinds, List.map_cons, List.forall₂_cons, ← literalKinds, ih]
      simp

theorem matchLiteral_eq_some {literal : List Char} :
    matchLiteral literal s = some rest ↔ ∃ m, s = m ++ rest ∧ m.map foldCase = literal := by
  induction literal generalizing s with
  | nil =>
    simp only [matchLiteral, Option.some.injEq, List.map_eq_nil_iff]
    constructor
    · rintro rfl
      exact ⟨[], rfl, rfl⟩
    · rintro ⟨m, rfl, rfl⟩
      rfl
  | cons l literal ih =>
    cases s with
    | nil => simp [matchLiteral]
    | cons c cs =>
      by_cases hc : foldCase c = l
      · rw [matchLiteral, if_pos hc, ih]
        constructor
        · rintro ⟨m, rfl, rfl⟩
          exact ⟨c :: m, rfl, by simp [hc]⟩
        · rintro ⟨m, heq, hm⟩
          cases m with
          | nil => cases hm
          | cons d m =>
            obtain ⟨rfl, rfl⟩ := List.cons.inj heq
            exact ⟨m, rfl, (List.cons.inj hm).2⟩
      · rw [matchLiteral, if_neg hc]
        simp only [reduceCtorEq, false_iff]
        rintro ⟨m, heq, hm⟩
        cases m with
        | nil => cases hm
        | cons d m =>
          obtain ⟨rfl, rfl⟩ := List.cons.inj heq
          exact hc (List.cons.inj hm).1

/-- The word, `k` spaces and a token of `n` characters. -/
def tokenKinds (k n : ℕ) : List (Char → Bool) :=
  literalKinds "bearer".toList ++ (List.replicate k isSpace ++ List.replicate n isTokenChar)

def IsToken (kinds : List (Char → Bool)) : Prop := ∃ k n, 1 ≤ k ∧ 10 ≤ n ∧ kinds = tokenKinds k n

theorem WordCharacters.context_spaces {afterWord : Bool} {spaces : List Char} (hne : spaces ≠ [])
    (h : ∀ c ∈ spaces, isSpace c = true) : context w.isWord afterWord spaces = false :=
  context_eq_false hne fun c hc => w.space c (h c hc)

theorem bearerToken_eq_some (h : bearerToken w s = some (n, replacement)) :
    replacement = "Bearer ".toList ++ mark ∧ ∃ kinds, IsToken kinds ∧ kinds.length = n ∧
      reads w.isWord kinds false s = true := by
  unfold bearerToken at h
  split at h
  · cases h
  · next rest hliteral =>
    obtain ⟨m, rfl, hm⟩ := matchLiteral_eq_some.mp hliteral
    dsimp only at h
    split at h
    · cases h
    · next hne =>
      obtain ⟨k, hrun, heq⟩ := Option.map_eq_some_iff.mp h
      cases heq
      obtain ⟨hk, hreads⟩ := longestRun_eq_some hrun
      have hspaces : ∀ c ∈ rest.takeWhile isSpace, isSpace c = true := fun c hc => List.mem_takeWhile_imp hc
      refine ⟨rfl, tokenKinds (rest.takeWhile isSpace).length k, ⟨_, k, List.length_pos_of_ne_nil hne, hk, rfl⟩, ?_, ?_⟩
      · simp [tokenKinds, literalKinds]
        omega
      · refine reads_append_of (forall₂_literalKinds.mpr hm) ?_
        nth_rewrite 2 [← List.takeWhile_append_dropWhile (p := isSpace) (l := rest)]
        refine reads_append_of (forall₂_replicate.mpr ⟨rfl, hspaces⟩) ?_
        rw [w.context_spaces hne hspaces]
        exact hreads

theorem parts_of_isToken (h : reads w.isWord (tokenKinds k n) false s = true) :
    ∃ m spaces rest, s = m ++ (spaces ++ rest) ∧ m.map foldCase = "bearer".toList ∧ spaces.length = k ∧
      (∀ c ∈ spaces, isSpace c = true) ∧
      reads w.isWord (List.replicate n isTokenChar) (context w.isWord (context w.isWord false m) spaces) rest = true := by
  obtain ⟨m, rest, rfl, hm, hrest⟩ := reads_append h
  obtain ⟨spaces, rest, rfl, hspaces, hrest⟩ := reads_append hrest
  obtain ⟨hlength, hspaces⟩ := forall₂_replicate.mp hspaces
  exact ⟨m, spaces, rest, rfl, forall₂_literalKinds.mp hm, hlength, hspaces, hrest⟩

theorem bearerToken_eq_none (h : bearerToken w s = none) : ¬Matches w.isWord IsToken s := by
  rintro ⟨kinds, ⟨k, n, hk, hn, rfl⟩, hreads⟩
  obtain ⟨m, spaces, rest, rfl, hm, rfl, hspaces, hrest⟩ := parts_of_isToken hreads
  have hne : spaces ≠ [] := List.ne_nil_of_length_pos hk
  have hstart : ∀ c ∈ rest.head?, isSpace c = false := by
    intro c hc
    obtain ⟨token, rest, rfl, htoken, -⟩ := reads_eq_true hrest
    obtain ⟨hlength, htoken⟩ := forall₂_replicate.mp htoken
    cases token with
    | nil => simp only [List.length_nil] at hlength; omega
    | cons d token =>
      cases hc
      exact isSpace_of_isTokenChar w (htoken _ List.mem_cons_self)
  have htake : (spaces ++ rest).takeWhile isSpace = spaces := by
    rw [List.takeWhile_append_of_pos hspaces]
    cases rest with
    | nil => simp
    | cons c rest => simp [hstart c rfl]
  have hdrop : (spaces ++ rest).dropWhile isSpace = rest := by
    rw [List.dropWhile_append_of_pos hspaces]
    cases rest with
    | nil => rfl
    | cons c rest => simp [hstart c rfl]
  rw [bearerToken, matchLiteral_eq_some.mpr ⟨m, rfl, hm⟩] at h
  simp only [htake, hne, ↓reduceIte, hdrop, Option.map_eq_none_iff] at h
  rw [w.context_spaces hne hspaces, longestRun_eq_none h hn] at hrest
  cases hrest

theorem startsWord_of_isToken (s : List Char) (h : Matches w.isWord IsToken s) : startsWord w.isWord s = true := by
  obtain ⟨kinds, ⟨k, n, -, -, rfl⟩, hreads⟩ := h
  obtain ⟨m, spaces, rest, rfl, hm, -⟩ := parts_of_isToken hreads
  cases m with
  | nil => cases hm
  | cons c m =>
    refine w.isWord_of_isAlphanum (isAlphanum_of_foldCase ?_)
    rw [← hm]
    exact List.mem_cons_self

theorem anchored_bearerToken : Anchored w.isWord (bearerToken w) := by
  refine anchored_of_reads startsWord_of_isToken ?_ fun s n replacement h => (bearerToken_eq_some h).2
  rintro kinds ⟨k, n, -, -, rfl⟩
  exact List.cons_ne_nil _ _

theorem bearerToken_of_clean (s : List Char) (h : ¬Matches w.isWord IsToken s) : bearerToken w s = none :=
  eq_none_of_not_matches (fun _ _ hfind => (bearerToken_eq_some hfind).2) h

/-- The parts of a credential that is not at an end before its value. -/
structure CredentialStart (name m spaces : List Char) (sign : Char) (spaces' : List Char) (first : Char) : Prop where
  name_mem : name ∈ credentialNames
  name_eq : m.map foldCase = name
  spaces : ∀ c ∈ spaces, isSpace c = true
  sign_eq : sign = ':' ∨ sign = '='
  spaces' : ∀ c ∈ spaces', isSpace c = true
  first : isValueChar first = true

variable {name spaces spaces' : List Char} {sign first : Char}

theorem head_of_name (h : name ∈ credentialNames) :
    ∀ c ∈ name.head?, c ∈ ['a', 't', 's', 'p'] := by
  have hall : ∀ name ∈ credentialNames, name.head?.all (fun c => decide (c ∈ ['a', 't', 's', 'p'])) = true := by decide
  intro c hc
  have hname := hall name h
  rw [Option.mem_def.mp hc] at hname
  exact of_decide_eq_true hname

theorem startsWord_sign (hspaces : ∀ c ∈ spaces, isSpace c = true)
    (hsign : sign = ':' ∨ sign = '=') : startsWord w.isWord (spaces ++ sign :: rest) = false := by
  cases spaces with
  | nil =>
    obtain rfl | rfl := hsign
    · exact w.ascii ':' (by decide)
    · exact w.ascii '=' (by decide)
  | cons c spaces => exact w.space c (hspaces c List.mem_cons_self)

theorem isSpace_of_isValueChar (h : isValueChar c = true) : isSpace c = false := by
  simp only [isValueChar, Bool.and_eq_true, Bool.not_eq_true'] at h
  exact h.1.1

private theorem takeWhile_spaces (rest : List Char) (hspaces : ∀ c ∈ spaces, isSpace c = true) (h : isSpace c = false) :
    (spaces ++ c :: rest).takeWhile isSpace = spaces ∧ (spaces ++ c :: rest).dropWhile isSpace = c :: rest := by
  rw [List.takeWhile_append_of_pos hspaces, List.dropWhile_append_of_pos hspaces]
  simp [h]

theorem credentialAt_start (h : CredentialStart name m spaces sign spaces' first) :
    credentialAt w (m ++ (spaces ++ sign :: (spaces' ++ first :: rest))) name =
      some (m.length + spaces.length + 1 + spaces'.length + ((first :: rest).takeWhile isValueChar).length, m ++ '=' :: mark) := by
  have hlength : name.length = m.length := by rw [← h.name_eq, List.length_map]
  have hsign : isSpace sign = false := by
    obtain rfl | rfl := h.sign_eq <;> decide
  obtain ⟨htake, hdrop⟩ := takeWhile_spaces (spaces' ++ first :: rest) h.spaces hsign
  obtain ⟨htake', hdrop'⟩ := takeWhile_spaces rest h.spaces' (isSpace_of_isValueChar h.first)
  rw [credentialAt, matchLiteral_eq_some.mpr ⟨m, rfl, h.name_eq⟩]
  simp only [startsWord_sign h.spaces h.sign_eq, Bool.false_eq_true, ↓reduceIte, htake, hdrop, htake', hdrop', hlength,
    List.take_left, h.sign_eq, List.takeWhile_cons, h.first, ne_eq, reduceCtorEq, not_false_eq_true, and_self]

theorem credentialAt_eq_some (hname : name ∈ credentialNames)
    (h : credentialAt w s name = some (n, replacement)) :
    ∃ m spaces sign spaces' first rest, CredentialStart name m spaces sign spaces' first ∧
      s = m ++ (spaces ++ sign :: (spaces' ++ first :: rest)) ∧ replacement = m ++ '=' :: mark ∧
      n = m.length + spaces.length + 1 + spaces'.length + ((first :: rest).takeWhile isValueChar).length := by
  have hfound := h
  unfold credentialAt at h
  split at h
  · cases h
  · next rest hliteral =>
    obtain ⟨m, rfl, hm⟩ := matchLiteral_eq_some.mp hliteral
    split at h
    · cases h
    · split at h
      · cases h
      · next sign rest' hdrop =>
        dsimp only at h
        split at h
        · next hcond =>
          cases hvalue : rest'.dropWhile isSpace with
          | nil => simp [hvalue] at hcond
          | cons first rest'' =>
            have hfirst : isValueChar first = true := by
              by_contra hnot
              rw [Bool.not_eq_true] at hnot
              simp [hvalue, hnot] at hcond
            have hstart : CredentialStart name m (rest.takeWhile isSpace) sign (rest'.takeWhile isSpace) first :=
              ⟨hname, hm, fun c hc => List.mem_takeWhile_imp hc, hcond.1, fun c hc => List.mem_takeWhile_imp hc, hfirst⟩
            have hrest' : rest' = rest'.takeWhile isSpace ++ first :: rest'' := by
              rw [← hvalue, List.takeWhile_append_dropWhile]
            have hrest : rest = rest.takeWhile isSpace ++ sign :: (rest'.takeWhile isSpace ++ first :: rest'') := by
              rw [← hrest', ← hdrop, List.takeWhile_append_dropWhile]
            refine ⟨m, _, sign, _, first, rest'', hstart, congrArg (m ++ ·) hrest, ?_⟩
            rw [hrest, credentialAt_start hstart] at hfound
            cases hfound
            exact ⟨rfl, rfl⟩
        · cases h

theorem credential_eq_some (h : credential w s = some (n, replacement)) :
    ∃ name m spaces sign spaces' first rest, CredentialStart name m spaces sign spaces' first ∧
      s = m ++ (spaces ++ sign :: (spaces' ++ first :: rest)) ∧ replacement = m ++ '=' :: mark ∧
      n = m.length + spaces.length + 1 + spaces'.length + ((first :: rest).takeWhile isValueChar).length := by
  obtain ⟨name, hname, h⟩ := List.exists_of_findSome?_eq_some h
  exact ⟨name, credentialAt_eq_some hname h⟩

theorem credential_start (h : CredentialStart name m spaces sign spaces' first) :
    credential w (m ++ (spaces ++ sign :: (spaces' ++ first :: rest))) =
      some (m.length + spaces.length + 1 + spaces'.length + ((first :: rest).takeWhile isValueChar).length, m ++ '=' :: mark) := by
  have hsome : credentialAt w (m ++ (spaces ++ sign :: (spaces' ++ first :: rest))) name = _ := credentialAt_start h
  cases hfind : credential w (m ++ (spaces ++ sign :: (spaces' ++ first :: rest))) with
  | none =>
    rw [List.findSome?_eq_none_iff.mp hfind name h.name_mem] at hsome
    cases hsome
  | some found =>
    obtain ⟨name', hname', hfound⟩ := List.exists_of_findSome?_eq_some hfind
    have hnames : ∀ a ∈ credentialNames, ∀ b ∈ credentialNames, a <+: b → a = b := by decide
    obtain ⟨m', _, _, _, _, _, hstart', heq, -⟩ := credentialAt_eq_some hname' hfound
    have hname : name' = name := by
      obtain hle | hle := Nat.le_total m.length m'.length
      · have hpre := List.prefix_of_prefix_length_le (List.prefix_append m _) (heq ▸ List.prefix_append m' _) hle
        have hmap := hpre.map foldCase
        rw [h.name_eq, hstart'.name_eq] at hmap
        exact (hnames _ h.name_mem _ hname' hmap).symm
      · have hpre := List.prefix_of_prefix_length_le (heq ▸ List.prefix_append m' _) (List.prefix_append m _) hle
        have hmap := hpre.map foldCase
        rw [h.name_eq, hstart'.name_eq] at hmap
        exact hnames _ hname' _ h.name_mem hmap
    rw [hname, hsome] at hfound
    exact hfound.symm

theorem CredentialStart.head (h : CredentialStart name m spaces sign spaces' first) : ∃ c m', m = c :: m' ∧ foldCase c ∈ ['a', 't', 's', 'p'] := by
  cases m with
  | nil =>
    have hmem := h.name_mem
    rw [← h.name_eq] at hmem
    exact absurd hmem (by decide)
  | cons c m =>
    refine ⟨c, m, rfl, head_of_name h.name_mem _ ?_⟩
    rw [← h.name_eq]
    rfl

theorem isWord_of_initial (h : foldCase c ∈ ['a', 't', 's', 'p']) : w.isWord c = true := by
  have hall : ∀ d ∈ ['a', 't', 's', 'p'], d.isAlphanum = true := List.all_eq_true.mp (by decide)
  exact w.isWord_of_foldCase (hall _ h)

theorem isWord_of_not_isValueChar (h : isValueChar c = false) : w.isWord c = false := by
  simp only [isValueChar, Bool.and_eq_false_iff, Bool.not_eq_false', bne_eq_false_iff_eq] at h
  obtain (hspace | rfl) | rfl := h
  · exact w.space c hspace
  · exact w.ascii ',' (by decide)
  · exact w.ascii ';' (by decide)

theorem head?_dropWhile_value {d : Char} (hd : d ∈ (s.dropWhile isValueChar).head?) : isValueChar d = false := by
  simpa [Option.mem_def.mp hd] using List.head?_dropWhile_not isValueChar s

theorem credential_match (h : credential w s = some (n, replacement)) :
    ∃ m tail rest, s = m ++ tail ++ rest ∧ (m ++ tail).length = n ∧ replacement = m ++ '=' :: mark ∧
      m.map foldCase ∈ credentialNames ∧ tail ≠ [] ∧ startsWord w.isWord tail = false ∧
      ∀ d ∈ rest.head?, isValueChar d = false := by
  obtain ⟨name, m, spaces, sign, spaces', first, rest, hstart, rfl, rfl, rfl⟩ := credential_eq_some h
  refine ⟨m, spaces ++ sign :: (spaces' ++ (first :: rest).takeWhile isValueChar), (first :: rest).dropWhile isValueChar,
    ?_, ?_, rfl, ?_, by simp, startsWord_sign hstart.spaces hstart.sign_eq, fun d hd => head?_dropWhile_value hd⟩
  · nth_rewrite 1 [← List.takeWhile_append_dropWhile (p := isValueChar) (l := first :: rest)]
    simp only [List.append_assoc, List.cons_append]
  · simp only [List.length_append, List.length_cons]
    omega
  · rw [hstart.name_eq]
    exact hstart.name_mem

theorem startsWord_of_credential (h : credential w s = some (n, replacement)) :
    ∃ c cs, s = c :: cs ∧ foldCase c ∈ ['a', 't', 's', 'p'] := by
  obtain ⟨name, m, spaces, sign, spaces', first, rest, hstart, rfl, -⟩ := credential_eq_some h
  obtain ⟨c, m', rfl, hc⟩ := hstart.head
  exact ⟨c, _, rfl, hc⟩

theorem anchored_credential : Anchored w.isWord (credential w) where
  starts s hs := by
    cases hfind : credential w s with
    | none => rfl
    | some found =>
      obtain ⟨c, cs, rfl, hc⟩ := startsWord_of_credential hfind
      rw [startsWord_cons, isWord_of_initial hc] at hs
      cases hs
  ends s n replacement hfind := by
    obtain ⟨m, tail, rest, rfl, hlength, -, -, hne, -, hrest⟩ := credential_match hfind
    refine ⟨m ++ tail, rest, rfl, by simp [hne], hlength, ?_⟩
    intro hword
    cases rest with
    | nil => cases hword
    | cons d rest =>
      rw [startsWord_cons, isWord_of_not_isValueChar (hrest d rfl)] at hword
      cases hword

/-- In the names a letter that starts one of them comes after another letter, and no `k` after an `s`. -/
private theorem pairs_of_names : ∀ name ∈ credentialNames, ∀ p ∈ name.zip name.tail,
    (p.2 ∈ ['a', 't', 's', 'p'] → p.1.isAlphanum = true) ∧ (p.1 = 's' → p.2 ≠ 'k') := by decide

private theorem mem_zip_tail {α : Type} {a b : α} (before after : List α) :
    (a, b) ∈ (before ++ a :: b :: after).zip (before ++ a :: b :: after).tail := by
  induction before with
  | nil => exact List.mem_cons_self
  | cons c before ih =>
    cases before with
    | nil => exact List.mem_cons_of_mem _ ih
    | cons d before => exact List.mem_cons_of_mem _ ih

/-- The kinds of the other patterns go on neither with a mark nor over the sign of a credential. -/
structure Ends (kinds : List (Char → Bool)) : Prop where
  bracket : ∀ kind ∈ kinds, kind '[' = false
  sign : ∀ kind ∈ kinds, kind '=' = false
  space : ∀ kind ∈ kinds.getLast?, kind ' ' = false
  folds : ∀ kind ∈ kinds, ∀ c c', foldCase c = foldCase c' → foldCase c ∈ "bearer".toList → kind c' = true → kind c = true

theorem ends_of_isKey {kinds : List (Char → Bool)} (h : IsKey kinds) : Ends kinds := by
  obtain ⟨n, hn, rfl⟩ := h
  have hmem : ∀ kind ∈ keyKinds n, kind = (· == 's') ∨ kind = (· == 'k') ∨ kind = (· == '-') ∨ kind = Char.isAlphanum ∨
      kind = isKeyChar := by
    intro kind hkind
    simp only [keyKinds, List.mem_cons, List.mem_replicate] at hkind
    tauto
  refine ⟨?_, ?_, ?_, ?_⟩
  · intro kind hkind
    obtain rfl | rfl | rfl | rfl | rfl := hmem kind hkind <;> decide
  · intro kind hkind
    obtain rfl | rfl | rfl | rfl | rfl := hmem kind hkind <;> decide
  · intro kind hkind
    obtain rfl | rfl | rfl | rfl | rfl := hmem kind (List.mem_of_mem_getLast? hkind) <;> decide
  · intro kind hkind c c' hfold hc hkind'
    have halnum := isAlphanum_of_foldCase hc
    obtain rfl | rfl | rfl | rfl | rfl := hmem kind hkind
    · rw [hfold, eq_of_beq hkind'] at hc
      exact absurd hc (by decide)
    · rw [hfold, eq_of_beq hkind'] at hc
      exact absurd hc (by decide)
    · rw [hfold, eq_of_beq hkind'] at hc
      exact absurd hc (by decide)
    · exact halnum
    · simp [isKeyChar, halnum]

theorem ends_of_isToken (w : WordCharacters) {kinds : List (Char → Bool)} (h : IsToken kinds) : Ends kinds := by
  obtain ⟨k, n, hk, hn, rfl⟩ := h
  have hmem : ∀ kind ∈ tokenKinds k n, (∃ l ∈ "bearer".toList, kind = fun c => foldCase c == l) ∨ kind = isSpace ∨
      kind = isTokenChar := by
    intro kind hkind
    simp only [tokenKinds, literalKinds, List.mem_append, List.mem_map, List.mem_replicate] at hkind
    obtain ⟨l, hl, rfl⟩ | ⟨-, rfl⟩ | ⟨-, rfl⟩ := hkind
    · exact .inl ⟨l, hl, rfl⟩
    · exact .inr (.inl rfl)
    · exact .inr (.inr rfl)
  have hletters : ∀ l ∈ "bearer".toList, (foldCase '[' == l) = false ∧ (foldCase '=' == l) = false := by
    have hall : ∀ l ∈ "bearer".toList, (foldCase '[' != l && foldCase '=' != l) = true := List.all_eq_true.mp (by decide)
    intro l hl
    simpa [bne] using hall l hl
  refine ⟨?_, ?_, ?_, ?_⟩
  · intro kind hkind
    obtain ⟨l, hl, rfl⟩ | rfl | rfl := hmem kind hkind
    · exact (hletters l hl).1
    all_goals decide
  · intro kind hkind
    obtain ⟨l, hl, rfl⟩ | rfl | rfl := hmem kind hkind
    · exact (hletters l hl).2
    all_goals decide
  · intro kind hkind
    have hlast : (tokenKinds k n).getLast? = some isTokenChar := by
      rw [tokenKinds, List.getLast?_append_of_ne_nil _ (by simp; omega), List.getLast?_append_of_ne_nil _ (by simp; omega),
        List.getLast?_replicate, if_neg (by omega)]
    rw [hlast] at hkind
    cases hkind
    decide
  · intro kind hkind c c' hfold hc hkind'
    obtain ⟨l, hl, rfl⟩ | rfl | rfl := hmem kind hkind
    · change (foldCase c == l) = true
      rw [hfold]
      exact hkind'
    · rw [hfold] at hc
      rw [isSpace_of_isWord (w.isWord_of_isAlphanum (isAlphanum_of_foldCase hc))] at hkind'
      cases hkind'
    · have hall : ∀ d ∈ "bearer".toList, d.isAlphanum = true := List.all_eq_true.mp (by decide)
      simp [isTokenChar, hall _ hc]

theorem keeps_openAiKey {kinds : List (Char → Bool)} (hends : Ends kinds)
    (h : openAiKey w (m ++ rest) = some (m.length, replacement)) : Keeps w.isWord kinds m replacement := by
  obtain ⟨rfl, -⟩ := openAiKey_eq_some h
  refine ⟨[], [], m, mark, rfl, rfl, .nil, .inl rfl, List.cons_ne_nil _ _, w.ascii '[' (by decide), ?_⟩
  intro kinds' hne hsuffix b rest'
  obtain ⟨kind, kinds', rfl⟩ := List.exists_cons_of_ne_nil hne
  have hbracket := hends.bracket kind (hsuffix.mem List.mem_cons_self)
  exact Bool.and_eq_false_iff.mpr (.inl hbracket)

theorem keeps_credential {kinds : List (Char → Bool)} (hends : Ends kinds)
    (h : credential w (m ++ rest) = some (m.length, replacement)) : Keeps w.isWord kinds m replacement := by
  obtain ⟨kept, tail, rest', heq, hlength, rfl, -, hne, hword, -⟩ := credential_match h
  obtain ⟨rfl, rfl⟩ := List.append_inj heq hlength.symm
  refine ⟨kept, kept, tail, '=' :: mark, rfl, rfl, ?_, .inr ⟨hne, hword⟩, List.cons_ne_nil _ _, w.ascii '=' (by decide), ?_⟩
  · exact List.forall₂_same.mpr fun c _ => ⟨rfl, fun kind _ hkind => hkind⟩
  · intro kinds' hne hsuffix b rest'
    obtain ⟨kind, kinds', rfl⟩ := List.exists_cons_of_ne_nil hne
    have hsign := hends.sign kind (hsuffix.mem List.mem_cons_self)
    exact Bool.and_eq_false_iff.mpr (.inl hsign)

theorem keeps_bearerToken {kinds : List (Char → Bool)} (hends : Ends kinds)
    (h : bearerToken w (m ++ rest) = some (m.length, replacement)) : Keeps w.isWord kinds m replacement := by
  obtain ⟨rfl, kinds', ⟨k, n, hk, hn, rfl⟩, hlength, hreads⟩ := bearerToken_eq_some h
  obtain ⟨kept, spaces, rest', heq, hkept, rfl, hspaces, -⟩ := parts_of_isToken hreads
  have hle : kept.length ≤ m.length := by
    have hlength' := congrArg List.length hkept
    rw [List.length_map] at hlength'
    simp only [tokenKinds, literalKinds, List.length_append, List.length_map] at hlength
    omega
  obtain ⟨tail, rfl⟩ := List.prefix_of_prefix_length_le (heq ▸ List.prefix_append kept _) (List.prefix_append m rest) hle
  have htail : tail ++ rest = spaces ++ rest' := by
    rw [List.append_assoc] at heq
    exact List.append_cancel_left heq
  have hne : tail ≠ [] := by
    rintro rfl
    have hlength' := congrArg List.length hkept
    rw [List.length_map] at hlength'
    simp only [tokenKinds, literalKinds, List.length_append, List.length_map, List.length_replicate, List.length_nil] at hlength
    omega
  obtain ⟨c, spaces, rfl⟩ := List.exists_cons_of_ne_nil (List.ne_nil_of_length_pos hk)
  obtain ⟨d, tail, rfl⟩ := List.exists_cons_of_ne_nil hne
  have hspace : w.isWord d = false := by
    rw [(List.cons.inj htail).1]
    exact w.space c (hspaces c List.mem_cons_self)
  refine ⟨kept, "Bearer".toList, d :: tail, ' ' :: mark, rfl, rfl, ?_, .inr ⟨hne, hspace⟩, List.cons_ne_nil _ _,
    w.ascii ' ' (by decide), ?_⟩
  · have hmaps : List.Forall₂ (· = ·) (kept.map foldCase) ("Bearer".toList.map foldCase) := by
      rw [List.forall₂_eq_eq_eq]
      exact hkept
    have hsame := List.forall₂_map_right_iff.mp (List.forall₂_map_left_iff.mp hmaps)
    have hletters : ∀ c ∈ kept, foldCase c ∈ "bearer".toList := by
      intro c hc
      rw [← hkept]
      exact List.mem_map_of_mem hc
    refine ((List.forall₂_and_left kept _).mpr ⟨hletters, hsame⟩).imp ?_
    intro c c' hc
    have hc' : foldCase c' ∈ "bearer".toList := hc.2 ▸ hc.1
    refine ⟨?_, fun kind hkind => hends.folds kind hkind c c' hc.2 hc.1⟩
    rw [w.isWord_of_isAlphanum (isAlphanum_of_foldCase hc.1), w.isWord_of_isAlphanum (isAlphanum_of_foldCase hc')]
  · intro kinds' hne hsuffix b rest''
    obtain ⟨kind, kinds', rfl⟩ := List.exists_cons_of_ne_nil hne
    refine Bool.and_eq_false_iff.mpr ?_
    cases kinds' with
    | nil =>
      obtain ⟨before, hbefore⟩ := hsuffix
      exact .inl (hends.space kind (by simp [← hbefore]))
    | cons kind' kinds' =>
      have hbracket := hends.bracket kind' (hsuffix.mem (List.mem_cons_of_mem _ List.mem_cons_self))
      exact .inr (Bool.and_eq_false_iff.mpr (.inl hbracket))

theorem context_mark {afterWord : Bool} (u : List Char) : context w.isWord afterWord (u ++ mark) = false := by
  rw [context, List.foldl_append]
  exact w.ascii ']' (by decide)

theorem clean_key {u : List Char} (hu : ∀ c ∈ u ++ mark, c ≠ 's') (h : Clean w.isWord IsKey false out) :
    Clean w.isWord IsKey false (u ++ mark ++ out) := by
  refine Clean.append (by rwa [context_mark]) ?_
  intro before c after hsplit hmatches
  obtain ⟨rest, heq⟩ := start_of_isKey hmatches
  refine hu c ?_ (List.cons.inj heq).1
  rw [hsplit]
  exact List.mem_append_right _ List.mem_cons_self

theorem head_of_isToken {c : Char} (h : Matches w.isWord IsToken (c :: s)) : foldCase c = 'b' := by
  obtain ⟨kinds, ⟨k, n, -, -, rfl⟩, hreads⟩ := h
  obtain ⟨m, spaces, rest, heq, hm, -⟩ := parts_of_isToken hreads
  cases m with
  | nil => cases hm
  | cons d m =>
    rw [(List.cons.inj heq).1]
    exact (List.cons.inj hm).1

theorem not_isToken_mark : ¬Matches w.isWord IsToken ("Bearer".toList ++ ' ' :: '[' :: out) := by
  rintro ⟨kinds, ⟨k, n, hk, hn, rfl⟩, hreads⟩
  obtain ⟨m, spaces, rest, heq, hm, rfl, hspaces, hrest⟩ := parts_of_isToken hreads
  have hlength : ("Bearer".toList).length = m.length := by
    have hlength := congrArg List.length hm
    rw [List.length_map] at hlength
    exact hlength.symm
  obtain ⟨rfl, hrest'⟩ := List.append_inj heq hlength
  obtain ⟨c, spaces, rfl⟩ := List.exists_cons_of_ne_nil (List.ne_nil_of_length_pos hk)
  obtain ⟨-, hbracket⟩ := List.cons.inj hrest'
  cases spaces with
  | nil =>
    obtain ⟨token, rest, rfl, htoken, -⟩ := reads_eq_true hrest
    obtain ⟨hlength, htoken⟩ := forall₂_replicate.mp htoken
    have hpos : 0 < token.length := by omega
    obtain ⟨d, token, rfl⟩ := List.exists_cons_of_ne_nil (List.ne_nil_of_length_pos hpos)
    have hd := htoken d List.mem_cons_self
    rw [← (List.cons.inj hbracket).1] at hd
    exact absurd hd (by decide)
  | cons d spaces =>
    have hd := hspaces d (List.mem_cons_of_mem _ List.mem_cons_self)
    rw [← (List.cons.inj hbracket).1] at hd
    exact absurd hd (by decide)

theorem clean_token {u : List Char} (hu : ∀ c ∈ u ++ mark, foldCase c ≠ 'b') (h : Clean w.isWord IsToken false out)
    {afterWord : Bool} : Clean w.isWord IsToken afterWord (u ++ mark ++ out) := by
  refine Clean.append (by rwa [context_mark]) ?_
  intro before c after hsplit hmatches
  refine hu c ?_ (head_of_isToken hmatches)
  rw [hsplit]
  exact List.mem_append_right _ List.mem_cons_self

theorem clean_bearer (h : Clean w.isWord IsToken false out) :
    Clean w.isWord IsToken false ("Bearer ".toList ++ mark ++ out) := by
  refine ⟨fun _ => not_isToken_mark, ?_⟩
  have hall : ∀ c ∈ "earer ".toList ++ mark, (foldCase c != 'b') = true := List.all_eq_true.mp (by decide)
  have hrest : ∀ c ∈ "earer ".toList ++ mark, foldCase c ≠ 'b' := fun c hc => bne_iff_ne.mp (hall c hc)
  exact clean_token hrest h

theorem clean_token_credential (hm : m.map foldCase ∈ credentialNames) (h : Clean w.isWord IsToken false out) :
    Clean w.isWord IsToken false (m ++ '=' :: mark ++ out) := by
  rw [List.append_cons m '=' mark]
  refine clean_token ?_ h
  intro c hc hb
  rw [← List.append_cons, List.mem_append] at hc
  obtain hc | hc := hc
  · have hnames : ∀ name ∈ credentialNames, 'b' ∉ name := by decide
    exact hnames _ hm (hb ▸ List.mem_map_of_mem hc)
  · have hmark : ∀ d ∈ '=' :: mark, (foldCase d != 'b') = true := List.all_eq_true.mp (by decide)
    exact bne_iff_ne.mp (hmark c hc) hb

theorem clean_key_credential (hm : m.map foldCase ∈ credentialNames) (h : Clean w.isWord IsKey false out) :
    Clean w.isWord IsKey false (m ++ '=' :: mark ++ out) := by
  refine Clean.append (by rwa [List.append_cons, context_mark]) ?_
  intro before c after hsplit hmatches
  obtain ⟨rest, heq⟩ := start_of_isKey hmatches
  obtain ⟨rfl, hafter⟩ := List.cons.inj heq
  obtain ⟨b, -, hb⟩ | ⟨d, rfl, hd⟩ := List.append_eq_append_iff.mp hsplit
  · have hmark : 's' ∉ '=' :: mark := by decide
    rw [hb] at hmark
    exact hmark (List.mem_append_right _ List.mem_cons_self)
  · cases d with
    | nil => exact absurd (List.cons.inj hd).1 (by decide)
    | cons d ds =>
      obtain ⟨rfl, rfl⟩ := List.cons.inj hd
      cases ds with
      | nil => exact absurd (List.cons.inj hafter).1 (by decide)
      | cons d ds =>
        obtain ⟨rfl, -⟩ := List.cons.inj hafter
        rw [List.map_append, List.map_cons, List.map_cons] at hm
        exact (pairs_of_names _ hm _ (mem_zip_tail _ _)).2 rfl rfl

theorem CredentialStart.eq_first {name spaces spaces' before after : List Char} {sign first d : Char}
    (h : CredentialStart name m spaces sign spaces' first)
    (hsplit : m ++ (spaces ++ sign :: (spaces' ++ [first])) = before ++ d :: after) (hne : before ≠ [])
    (hcontext : context w.isWord false before = false) (hd : foldCase d ∈ ['a', 't', 's', 'p']) :
    before = m ++ (spaces ++ sign :: spaces') ∧ d = first := by
  have hword := isWord_of_initial (w := w) hd
  have hseparators : ∀ c ∈ spaces ++ sign :: spaces', w.isWord c = false := by
    intro c hc
    rw [List.mem_append, List.mem_cons] at hc
    obtain hc | rfl | hc := hc
    · exact w.space c (h.spaces c hc)
    · have hsign : startsWord w.isWord ([] ++ c :: []) = false := startsWord_sign (by simp) h.sign_eq
      exact hsign
    · exact w.space c (h.spaces' c hc)
  have htail : ∀ b, spaces ++ sign :: (spaces' ++ [first]) = b ++ d :: after → b = spaces ++ sign :: spaces' ∧ d = first := by
    intro b hb
    have hb' : (spaces ++ sign :: spaces') ++ [first] = b ++ d :: after := by simpa using hb
    obtain rfl | ⟨after, c, rfl⟩ := List.eq_nil_or_concat' after
    · obtain ⟨rfl, hfirst⟩ := List.append_inj' hb' rfl
      exact ⟨rfl, (List.cons.inj hfirst).1.symm⟩
    · rw [← List.cons_append, ← List.append_assoc] at hb'
      obtain ⟨heq, -⟩ := List.append_inj' hb' rfl
      have hfalse := hseparators d (heq ▸ List.mem_append_right _ List.mem_cons_self)
      rw [hfalse] at hword
      cases hword
  obtain ⟨b, rfl, hb⟩ | ⟨b, rfl, hb⟩ := List.append_eq_append_iff.mp hsplit
  · obtain ⟨rfl, hfirst⟩ := htail b hb
    exact ⟨rfl, hfirst⟩
  · cases b with
    | nil =>
      obtain ⟨hb', -⟩ := htail [] hb.symm
      simp at hb'
    | cons c b =>
      obtain ⟨rfl, -⟩ := List.cons.inj hb
      obtain rfl | ⟨before, y, rfl⟩ := List.eq_nil_or_concat' before
      · exact absurd rfl hne
      · have hmem := h.name_mem
        rw [← h.name_eq, List.map_append, List.map_append, List.append_assoc] at hmem
        have halnum := (pairs_of_names _ hmem _ (mem_zip_tail _ _)).1 hd
        rw [context, List.foldl_append] at hcontext
        have htrue := w.isWord_of_foldCase halnum
        exact absurd hcontext (by simp [htrue])

theorem credential_keep {cs : List Char} (hnone : credential w (c :: cs) = none)
    (h : Substituted w.isWord (credential w) (fun s => credential w s = none) false (c :: cs) (c :: out)) :
    credential w (c :: out) = none := by
  by_contra hsome
  obtain ⟨⟨n, replacement⟩, hfind⟩ := Option.ne_none_iff_exists'.mp hsome
  obtain ⟨name, m, spaces, sign, spaces', first, rest, hstart, heq, -⟩ := credential_eq_some hfind
  have hu : c :: out = (m ++ (spaces ++ sign :: (spaces' ++ [first]))) ++ rest := by simpa using heq
  have hstarts : ∀ rest', c :: cs ≠ m ++ (spaces ++ sign :: (spaces' ++ first :: rest')) := by
    intro rest' heq'
    rw [heq', credential_start hstart] at hnone
    cases hnone
  rw [hu] at h
  obtain ⟨rest', heq'⟩ | ⟨before, after, m', rest', replacement', out', hsplit, hafter, heq', hcontext, hfind', hrest⟩ := h.start
  · exact hstarts rest' (by simpa using heq')
  · obtain ⟨kept, tail, rest'', hmatch, -, rfl, hname, -⟩ := credential_match hfind'
    obtain ⟨d, ds, hd, hinitial⟩ := startsWord_of_credential hfind'
    have hne : before ≠ [] := by
      rintro rfl
      rw [heq', List.nil_append, hfind'] at hnone
      cases hnone
    obtain ⟨a, after, rfl⟩ := List.exists_cons_of_ne_nil hafter
    obtain rfl : a = d := by
      cases kept with
      | nil => exact absurd hname (by decide)
      | cons e kept =>
        rw [hd] at hmatch
        exact (List.cons.inj hrest).1.trans (List.cons.inj hmatch).1.symm
    obtain ⟨rfl, rfl⟩ := hstart.eq_first hsplit hne hcontext hinitial
    refine hstarts ds ?_
    rw [heq', hd]
    simp

theorem head_of_substituted {s : List Char} (h : Substituted w.isWord (credential w) (fun s => credential w s = none) false s out)
    (hs : ∀ d ∈ s.head?, isValueChar d = false) : ∀ d ∈ out.head?, isValueChar d = false := by
  cases h with
  | nil => exact hs
  | keep => exact hs
  | hit hfind =>
    obtain ⟨c, cs, heq, hc⟩ := startsWord_of_credential hfind
    rw [heq] at hs
    have hfalse := isWord_of_not_isValueChar (w := w) (hs c rfl)
    rw [isWord_of_initial hc] at hfalse
    cases hfalse

theorem credential_mark (hm : m.map foldCase ∈ credentialNames) (hout : ∀ d ∈ out.head?, isValueChar d = false) :
    credential w (m ++ '=' :: mark ++ out) = some ((m ++ '=' :: mark).length, m ++ '=' :: mark) := by
  have hstart : CredentialStart (m.map foldCase) m [] '=' [] '[' :=
    ⟨hm, rfl, by simp, .inr rfl, by simp, by decide⟩
  have hvalue : ∀ c ∈ mark, isValueChar c = true := List.all_eq_true.mp (by decide)
  have htake : (mark ++ out).takeWhile isValueChar = mark := by
    rw [List.takeWhile_append_of_pos hvalue]
    cases out with
    | nil => simp
    | cons d out => simp [hout d rfl]
  have hfind : credential w (m ++ ([] ++ '=' :: ([] ++ '[' :: (mark.tail ++ out)))) = _ := credential_start hstart
  have hcons : '[' :: (mark.tail ++ out) = mark ++ out := rfl
  rw [hcons, htake] at hfind
  rw [List.append_assoc]
  refine hfind.trans ?_
  simp [List.length_append]
  omega

theorem substitute_credential {afterWord : Bool}
    (h : Substituted w.isWord (credential w) (fun s => credential w s = none) afterWord s out) :
    (substitute w.isWord (credential w) 0 afterWord out).1 = out := by
  induction h with
  | nil => rfl
  | @keep afterWord c cs out hkeep rest ih =>
    have hnone : credential w (c :: out) = none ∨ afterWord = true := by
      cases afterWord with
      | true => exact .inr rfl
      | false => exact .inl (credential_keep (hkeep rfl) (.keep hkeep rest))
    rw [substitute_of_none hnone]
    exact congrArg (c :: ·) ih
  | @hit m cs replacement out hfind rest ih =>
    obtain ⟨kept, tail, rest', heq, hlength, rfl, hname, -, -, hvalue⟩ := credential_match hfind
    obtain ⟨rfl, rfl⟩ := List.append_inj heq hlength.symm
    have hmark := credential_mark (w := w) hname (head_of_substituted rest hvalue)
    have hcontext : context w.isWord false (kept ++ '=' :: mark) = false := by rw [List.append_cons, context_mark]
    rw [substitute_of_find anchored_credential (by simp) (fun _ => hcontext) hmark]
    exact congrArg (kept ++ '=' :: mark ++ ·) ih

private theorem keys_clean (s : List Char) : Clean w.isWord IsKey false (substitute w.isWord (openAiKey w) 0 false s).1 := by
  refine (substituted anchored_openAiKey (fun _ => openAiKey_eq_none) false s).clean
    (fun m rest replacement hfind kinds hkinds => keeps_openAiKey (ends_of_isKey hkinds) hfind) ?_
  intro m rest replacement hfind out hout
  obtain ⟨rfl, -⟩ := openAiKey_eq_some hfind
  have hmark : ∀ c ∈ [] ++ mark, (c != 's') = true := List.all_eq_true.mp (by decide)
  exact clean_key (fun c hc => bne_iff_ne.mp (hmark c hc)) hout

private theorem tokens_clean (hs : Clean w.isWord IsKey false s) :
    Clean w.isWord IsKey false (substitute w.isWord (bearerToken w) 0 false s).1 ∧
      Clean w.isWord IsToken false (substitute w.isWord (bearerToken w) 0 false s).1 := by
  constructor
  · refine ((substituted anchored_bearerToken (fun _ => id) false s).of_clean anchored_bearerToken startsWord_of_isKey hs).clean
      (fun m rest replacement hfind kinds hkinds => keeps_bearerToken (ends_of_isKey hkinds) hfind) ?_
    intro m rest replacement hfind out hout
    obtain ⟨rfl, -⟩ := bearerToken_eq_some hfind
    have hmark : ∀ c ∈ "Bearer ".toList ++ mark, (c != 's') = true := List.all_eq_true.mp (by decide)
    exact clean_key (fun c hc => bne_iff_ne.mp (hmark c hc)) hout
  · refine (substituted anchored_bearerToken (fun _ => bearerToken_eq_none) false s).clean
      (fun m rest replacement hfind kinds hkinds => keeps_bearerToken (ends_of_isToken w hkinds) hfind) ?_
    intro m rest replacement hfind out hout
    obtain ⟨rfl, -⟩ := bearerToken_eq_some hfind
    exact clean_bearer hout

private theorem credentials_clean (hkey : Clean w.isWord IsKey false s) (htoken : Clean w.isWord IsToken false s) :
    Clean w.isWord IsKey false (substitute w.isWord (credential w) 0 false s).1 ∧
      Clean w.isWord IsToken false (substitute w.isWord (credential w) 0 false s).1 := by
  have hsubstituted := substituted (anchored_credential (w := w)) (fun _ => id) false s
  constructor
  · refine (hsubstituted.of_clean anchored_credential startsWord_of_isKey hkey).clean
      (fun m rest replacement hfind kinds hkinds => keeps_credential (ends_of_isKey hkinds) hfind) ?_
    intro m rest replacement hfind out hout
    obtain ⟨kept, tail, rest', -, -, rfl, hname, -⟩ := credential_match hfind
    exact clean_key_credential hname hout
  · refine (hsubstituted.of_clean anchored_credential startsWord_of_isToken htoken).clean
      (fun m rest replacement hfind kinds hkinds => keeps_credential (ends_of_isToken w hkinds) hfind) ?_
    intro m rest replacement hfind out hout
    obtain ⟨kept, tail, rest', -, -, rfl, hname, -⟩ := credential_match hfind
    exact clean_token_credential hname hout

/-- **A redacted text is not redacted further.** -/
theorem redactChars_redactChars (s : List Char) : (redactChars w (redactChars w s).1).1 = (redactChars w s).1 := by
  obtain ⟨hkey, htoken⟩ := tokens_clean (keys_clean (w := w) s)
  obtain ⟨hkey', htoken'⟩ := credentials_clean hkey htoken
  have hkeys := substitute_of_clean openAiKey_of_clean hkey'
  have htokens := substitute_of_clean bearerToken_of_clean htoken'
  have hcredentials := substitute_credential (substituted (anchored_credential (w := w)) (fun _ => id) false
    (substitute w.isWord (bearerToken w) 0 false (substitute w.isWord (openAiKey w) 0 false s).1).1)
  simp only [redactChars, hkeys, htokens, hcredentials]

theorem redactSensitiveText_redactSensitiveText (text : String) :
    (redactSensitiveText w (redactSensitiveText w text).1).1 = (redactSensitiveText w text).1 := by
  by_cases htext : text = ""
  · simp [redactSensitiveText, htext]
  · by_cases hredacted : String.ofList (redactChars w text.toList).1 = ""
    · simp [redactSensitiveText, htext, hredacted]
    · simp only [redactSensitiveText, htext, hredacted, ↓reduceIte, String.toList_ofList, redactChars_redactChars]

/-- A redacted text shows no key and no bearer token: at no place, after no character, does it read
as one of them. -/
theorem redactSensitiveText_clean (w : WordCharacters) (text : String) :
    Clean w.isWord IsKey false (redactSensitiveText w text).1.toList ∧
      Clean w.isWord IsToken false (redactSensitiveText w text).1.toList := by
  by_cases htext : text = ""
  · rw [redactSensitiveText, if_pos htext, htext]
    exact ⟨trivial, trivial⟩
  · obtain ⟨hkey, htoken⟩ := tokens_clean (keys_clean (w := w) text.toList)
    rw [redactSensitiveText, if_neg htext, String.toList_ofList]
    exact credentials_clean hkey htoken

end OpenMinion.TextRedactions
