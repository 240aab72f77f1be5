import Mathlib.Data.List.Permutation
import OpenMinion.InterleavedThreads

/-!
# Guarded writes and edits of one workspace file

A guarded write locks the descriptor, checks the digest, empties the file and writes it in pieces; an edit reads the
file without the lock and then writes without a check. The agents take these steps in any order.
-/
namespace OpenMinion.FileEdits
open InterleavedThreads TransitionRuns

abbrev Bytes := List UInt8

inductive EditOp where
  | replace | insertBefore | insertAfter | unknown
  deriving DecidableEq

structure EditOperation where
  op : EditOp
  oldText : String
  newText : String
  deriving DecidableEq

/-- The places where `old` starts, without overlaps; the first argument is the number of
characters that still belong to the last match. -/
def occurrences (old : List Char) : ℕ → ℕ → List Char → List ℕ
  | _, index, [] => if old = [] then [index] else []
  | skip + 1, index, _ :: cs => occurrences old skip (index + 1) cs
  | 0, index, c :: cs =>
    if old.isPrefixOf (c :: cs) then index :: occurrences old (old.length - 1) (index + 1) cs
    else occurrences old 0 (index + 1) cs

/-- `\r\n|\r|\n` at the start of a text. -/
def newlineAt : List Char → Option (List Char)
  | '\r' :: '\n' :: _ => some ['\r', '\n']
  | '\r' :: _ => some ['\r']
  | '\n' :: _ => some ['\n']
  | _ => none

/-- `re.search(r"\r\n|\r|\n", text)`. -/
def firstNewline : List Char → Option (List Char)
  | [] => none
  | c :: cs => (newlineAt (c :: cs)).or (firstNewline cs)

/-- `re.search(r"(\r\n|\r|\n)$", text)`: `$` also matches before a last newline. -/
def endNewline : List Char → Option (List Char)
  | [] => none
  | c :: cs =>
    match newlineAt (c :: cs) with
    | some newline =>
      let rest := (c :: cs).drop newline.length
      if rest = [] ∨ rest = ['\n'] then some newline else endNewline cs
    | none => endNewline cs

/-- One operation of `edit_content`; `none` is an error. -/
def applyOperation (content : List Char) (operation : EditOperation) : Option (List Char) :=
  let old := operation.oldText.toList
  let new := operation.newText.toList
  match occurrences old 0 0 content with
  | [start] =>
    let before := content.take start
    let after := content.drop (start + old.length)
    let adjacent := if operation.op = .insertBefore then endNewline before else newlineAt after
    let separator := (adjacent.or (firstNewline content)).getD ['\n']
    match operation.op with
    | .replace => some (before ++ new ++ after)
    | .insertBefore => some (before ++ (new ++ separator ++ old) ++ after)
    | .insertAfter => some (before ++ (old ++ separator ++ new) ++ after)
    | .unknown => none
  | _ => none

def editContent (content : List Char) (operations : List EditOperation) : Option (List Char) :=
  operations.foldlM applyOperation content

def editBytes (operations : List EditOperation) (bytes : Bytes) : Option Bytes := do
  let content ← String.fromUTF8? ⟨bytes.toArray⟩
  let edited ← editContent content.toList operations
  some (String.ofList edited).toUTF8.toList

section
variable {Digest : Type} [DecidableEq Digest]

inductive Call (Digest : Type) where
  /-- `write(path, content, expected_content_sha256=...)`. -/
  | write (expected : Digest) (encoded : Bytes)
  | edit (operations : List EditOperation)
  deriving DecidableEq

structure Done (Digest : Type) where
  call : Call Digest
  replaced : Bytes

structure Shared (Digest : Type) where
  file : Bytes
  locked : Bool
  /-- The successful calls, in the order in which they closed the file. -/
  done : List (Done Digest)

inductive Place (Digest : Type) where
  | idle
  | reading (operations : List EditOperation) (bytes : Bytes)
  | edited (operations : List EditOperation) (bytes encoded : Bytes)
  | guarded (expected : Digest) (encoded : Bytes)
  | checking (expected : Digest) (encoded : Bytes)
  | emptying (call : Call Digest) (encoded : Bytes)
  | replacing (call : Call Digest) (replaced rest : Bytes)

variable (digest : Bytes → Digest)

def start (call : Call Digest) : Place Digest :=
  match call with
  | .write expected encoded => .guarded expected encoded
  | .edit operations => .reading operations []

def advance (s : Shared Digest) (place : Place Digest) (transferred : ℕ) : Shared Digest × Place Digest :=
  match place with
  | .idle => (s, .idle)
  | .reading operations bytes =>
    if bytes.length < s.file.length then
      (s, .reading operations (bytes ++ (s.file.drop bytes.length).take transferred))
    else match editBytes operations bytes with
      | some encoded => (s, .edited operations bytes encoded)
      | none => (s, .idle)
  | .edited operations bytes encoded =>
    if s.locked then (s, .edited operations bytes encoded)
    else ({ s with locked := true }, .emptying (.edit operations) encoded)
  | .guarded expected encoded =>
    if s.locked then (s, .guarded expected encoded)
    else ({ s with locked := true }, .checking expected encoded)
  | .checking expected encoded =>
    if digest s.file = expected then (s, .emptying (.write expected encoded) encoded)
    else ({ s with locked := false }, .idle)
  | .emptying call encoded => ({ s with file := [] }, .replacing call s.file encoded)
  | .replacing call replaced [] => ({ s with locked := false, done := s.done ++ [⟨call, replaced⟩] }, .idle)
  | .replacing call replaced rest =>
    ({ s with file := s.file ++ rest.take transferred }, .replacing call replaced (rest.drop transferred))

def agents : Threads (Shared Digest) (Place Digest) (Call Digest) ℕ where
  isIdle place := match place with | .idle => true | _ => false
  begin s call := (s, start call)
  next s place transferred := advance digest s place transferred

def initial (Agent : Type) (content : Bytes) : System Agent (Shared Digest) (Place Digest) :=
  ⟨⟨content, false, []⟩, fun _ => .idle⟩

def Call.replay (call : Call Digest) (bytes : Bytes) : Option Bytes :=
  match call with
  | .write expected encoded => if digest bytes = expected then some encoded else none
  | .edit operations => editBytes operations bytes

def replayAll (calls : List (Call Digest)) (bytes : Bytes) : Option Bytes :=
  calls.foldlM (fun bytes call => call.replay digest bytes) bytes

/-- A guarded write replaced bytes with the expected digest. -/
def Done.GuardKept (done : Done Digest) : Prop :=
  match done.call with
  | .write expected _ => digest done.replaced = expected
  | .edit _ => True

/-- The file is what the successful calls make of the first content in some order, each of them
succeeding alone. -/
def Serializable (content : Bytes) (s : Shared Digest) : Prop :=
  ∃ order, order.Perm (s.done.map (·.call)) ∧ replayAll digest order content = some s.file

def EditFindsItsRead {Agent : Type} (σ : System Agent (Shared Digest) (Place Digest)) : Action Agent (Call Digest) ℕ → Prop
  | .advance agent _ =>
    match σ.threads agent with
    | .edited _ bytes _ => σ.shared.locked = false → σ.shared.file = bytes
    | _ => True
  | .start .. => True

def Place.holds (place : Place Digest) : Option Unit :=
  match place with
  | .checking .. | .emptying .. | .replacing .. => some ()
  | _ => none

variable {digest} {content : Bytes}

/-- The calls so far, one after the other, made these bytes, when the edits have found what they read. -/
def Replayed (digest : Bytes → Digest) (current : Prop) (content : Bytes) (done : List (Done Digest)) (bytes : Bytes) : Prop :=
  current → replayAll digest (done.map (·.call)) content = some bytes

/-- The assertion at the place of an agent. While the lock is held the file changes by its holder alone. -/
def At (digest : Bytes → Digest) (current : Prop) (content : Bytes) (s : Shared Digest) (place : Place Digest) : Prop :=
  match place with
  | .idle | .reading .. | .guarded .. => True
  | .edited operations bytes encoded => editBytes operations bytes = some encoded
  | .checking _ _ => s.locked = true ∧ Replayed digest current content s.done s.file
  | .emptying call encoded => s.locked = true ∧ Replayed digest current content s.done s.file ∧
      (current → call.replay digest s.file = some encoded) ∧ Done.GuardKept digest ⟨call, s.file⟩
  | .replacing call replaced rest => s.locked = true ∧ Replayed digest current content s.done replaced ∧
      (current → call.replay digest replaced = some (s.file ++ rest)) ∧ Done.GuardKept digest ⟨call, replaced⟩

structure Settled (digest : Bytes → Digest) (current : Prop) (content : Bytes) (s : Shared Digest) : Prop where
  replayed : s.locked = false → Replayed digest current content s.done s.file
  guards : ∀ done ∈ s.done, Done.GuardKept digest done

variable {Agent : Type} [DecidableEq Agent] {σ : System Agent (Shared Digest) (Place Digest)} {current : Prop}

structure Sound (digest : Bytes → Digest) (current : Prop) (content : Bytes) (σ : System Agent (Shared Digest) (Place Digest)) : Prop where
  places : Annotated (Settled digest current content) (At digest current content) σ
  exclusive : Exclusive Place.holds σ

omit [DecidableEq Agent] in
theorem sound_initial : Sound digest current content (initial Agent content) where
  places := ⟨⟨fun _ _ => rfl, nofun⟩, fun _ => trivial⟩
  exclusive := nofun

theorem At.of_not_holds {s s' : Shared Digest} {place : Place Digest} (h : At digest current content s place)
    (hholds : place.holds = none) : At digest current content s' place := by
  cases place with
  | idle | reading | guarded => trivial
  | edited => exact h
  | checking | emptying | replacing => cases hholds

theorem At.locked {s : Shared Digest} {place : Place Digest} (h : At digest current content s place)
    (hholds : place.holds = some ()) : s.locked = true := by
  cases place with
  | idle | reading | edited | guarded => cases hholds
  | checking | emptying | replacing => exact h.1

/-- A step that keeps the invariant of the shared state, with the assertion of its own agent. The
other agents are without the lock, or the shared state is as before. -/
theorem Sound.become (h : Sound digest current content σ) {agent : Agent} {r : Shared Digest × Place Digest}
    (hsettled : Settled digest current content r.1) (hat : At digest current content r.1 r.2)
    (hothers : r.1 = σ.shared ∨ (σ.threads agent).holds = some () ∨ σ.shared.locked = false)
    (hholds : r.2.holds = some () → (σ.threads agent).holds = some () ∨ σ.shared.locked = false) :
    Sound digest current content (σ.become agent r) := by
  have hfree : σ.shared.locked = false → ∀ other, (σ.threads other).holds = none := by
    intro hlock other
    by_contra hne
    obtain ⟨_, hother⟩ := Option.ne_none_iff_exists'.mp hne
    have hlocked := (h.places.threads other).locked hother
    rw [hlock] at hlocked
    cases hlocked
  refine ⟨Keeps.annotated ⟨hsettled, hat, ?_⟩, h.exclusive.become ?_⟩
  · intro other hne
    rcases hothers with hsame | hown | hlock
    · rw [hsame]
      exact h.places.threads other
    · refine (h.places.threads other).of_not_holds ?_
      by_contra hheld
      obtain ⟨_, hother⟩ := Option.ne_none_iff_exists'.mp hheld
      exact hne (h.exclusive other agent () hother hown)
    · exact (h.places.threads other).of_not_holds (hfree hlock other)
  · intro _ hr
    rcases hholds hr with hown | hlock
    · exact .inl hown
    · refine .inr fun other _ hother => ?_
      rw [hfree hlock other] at hother
      cases hother

theorem replayAll_append (calls : List (Call Digest)) (call : Call Digest) (bytes : Bytes) :
    replayAll digest (calls ++ [call]) bytes = (replayAll digest calls bytes).bind (call.replay digest) := by
  simp [replayAll, List.foldlM_append]

theorem sound_step (h : Sound digest current content σ) (action : Action Agent (Call Digest) ℕ)
    (hcurrent : current → EditFindsItsRead σ action) : Sound digest current content ((agents digest).step σ action) := by
  cases action with
  | start agent call =>
    rw [Threads.step]
    split
    · refine h.become h.places.shared ?_ (.inl rfl) ?_
      · cases call <;> trivial
      · cases call <;> rintro ⟨⟩
    · exact h
  | advance agent transferred =>
    have hat := h.places.threads agent
    have hshared := h.places.shared
    rw [Threads.step]
    simp only [EditFindsItsRead] at hcurrent
    cases hplace : σ.threads agent with
    | idle => exact h.become hshared trivial (.inl rfl) (by rintro ⟨⟩)
    | reading operations bytes =>
      simp only [agents, advance]
      split
      · exact h.become hshared trivial (.inl rfl) (by rintro ⟨⟩)
      · cases hedit : editBytes operations bytes with
        | none => exact h.become hshared trivial (.inl rfl) (by rintro ⟨⟩)
        | some encoded => exact h.become hshared hedit (.inl rfl) (by rintro ⟨⟩)
    | edited operations bytes encoded =>
      rw [hplace] at hat hcurrent
      simp only [agents, advance]
      split
      · exact h.become hshared hat (.inl rfl) (by rintro ⟨⟩)
      · next hfree =>
        have hfree : σ.shared.locked = false := by simpa using hfree
        refine h.become ⟨by rintro ⟨⟩, hshared.guards⟩ ⟨rfl, hshared.replayed hfree, ?_, trivial⟩ (.inr (.inr hfree)) fun _ => .inr hfree
        intro hc
        have hfile := hcurrent hc hfree
        exact (congrArg (editBytes operations) hfile).trans hat
    | guarded expected encoded =>
      simp only [agents, advance]
      split
      · exact h.become hshared trivial (.inl rfl) (by rintro ⟨⟩)
      · next hfree =>
        have hfree : σ.shared.locked = false := by simpa using hfree
        exact h.become ⟨by rintro ⟨⟩, hshared.guards⟩ ⟨rfl, hshared.replayed hfree⟩ (.inr (.inr hfree)) fun _ => .inr hfree
    | checking expected encoded =>
      rw [hplace] at hat
      have hholds : (σ.threads agent).holds = some () := by rw [hplace]; rfl
      simp only [agents, advance]
      split
      · next hdigest =>
        refine h.become hshared ⟨hat.1, hat.2, fun _ => ?_, hdigest⟩ (.inl rfl) fun _ => .inl hholds
        exact if_pos hdigest
      · exact h.become ⟨fun _ => hat.2, hshared.guards⟩ trivial (.inr (.inl hholds)) (by rintro ⟨⟩)
    | emptying call encoded =>
      rw [hplace] at hat
      have hholds : (σ.threads agent).holds = some () := by rw [hplace]; rfl
      obtain ⟨hlocked, hreplayed, hreplay, hguard⟩ := hat
      refine h.become ⟨fun hfree => ?_, hshared.guards⟩ ⟨hlocked, hreplayed, hreplay, hguard⟩ (.inr (.inl hholds)) fun _ => .inl hholds
      exact absurd (hlocked.symm.trans hfree) (by decide)
    | replacing call replaced rest =>
      rw [hplace] at hat
      have hholds : (σ.threads agent).holds = some () := by rw [hplace]; rfl
      obtain ⟨hlocked, hreplayed, hreplay, hguard⟩ := hat
      cases rest with
      | nil =>
        refine h.become ⟨fun _ hc => ?_, ?_⟩ trivial (.inr (.inl hholds)) (by rintro ⟨⟩)
        · -- the closed file is what the call makes of the bytes it replaced
          simp only [agents, advance]
          rw [List.map_append, List.map_singleton, replayAll_append, hreplayed hc]
          simpa using hreplay hc
        · intro done hdone
          rcases List.mem_append.mp hdone with hdone | hdone
          · exact hshared.guards done hdone
          · rw [List.mem_singleton.mp hdone]
            exact hguard
      | cons byte rest =>
        refine h.become ⟨fun hfree => ?_, hshared.guards⟩ ⟨hlocked, hreplayed, fun hc => ?_, hguard⟩ (.inr (.inl hholds))
          fun _ => .inl hholds
        · exact absurd (hlocked.symm.trans hfree) (by decide)
        · simp only [agents, advance]
          rw [hreplay hc, List.append_assoc, List.take_append_drop]

/-- **Guarded writes replace what they expect; edits that find what they read are serializable.** -/
theorem no_lost_update (digest : Bytes → Digest) (Agent : Type) [DecidableEq Agent] (content : Bytes)
    (actions : List (Action Agent (Call Digest) ℕ)) :
    (∀ done ∈ (run (agents digest).step (initial Agent content) actions).shared.done, done.GuardKept digest) ∧
      (Guarded (agents digest).step EditFindsItsRead (initial Agent content) actions →
        (run (agents digest).step (initial Agent content) actions).shared.locked = false →
        Serializable digest content (run (agents digest).step (initial Agent content) actions).shared) := by
  refine ⟨?_, ?_⟩
  · have hsound : Sound digest False content (run (agents digest).step (initial Agent content) actions) :=
      run_invariant (I := Sound digest False content) (fun σ action h => sound_step h action False.elim) sound_initial actions
    exact hsound.places.shared.guards
  · intro hguarded hfree
    have hsound : Sound digest True content (run (agents digest).step (initial Agent content) actions) :=
      hguarded.invariant (I := Sound digest True content) (fun σ action h hok => sound_step h action fun _ => hok) sound_initial
    exact ⟨_, List.Perm.refl _, hsound.places.shared.replayed hfree trivial⟩

def editOf (old new : String) : Call Bytes := .edit [⟨.replace, old, new⟩]

instance {Agent : Type} (σ : System Agent (Shared Bytes) (Place Bytes)) (action : Action Agent (Call Bytes) ℕ) :
    Decidable (EditFindsItsRead σ action) := by
  unfold EditFindsItsRead
  split
  · split <;> infer_instance
  · infer_instance

/-- Two edits after each other, and a guarded write that waits for the lock of the first and is made after the second. -/
def editsAndWrite : List (Action (Fin 3) (Call Bytes) ℕ) :=
  [Action.start 0 (editOf "a" "x"), Action.start 1 (editOf "b" "y"), Action.start 2 (.write [120, 121] [122])] ++
    [0, 0, 0, 2, 0, 2, 0, 0].map (Action.advance · 2) ++ [1, 1, 1, 1, 1, 1].map (Action.advance · 2) ++
    [2, 2, 2, 2, 2].map (Action.advance · 2)

theorem no_lost_update_edits :
    let s := (run (agents id).step (initial (Fin 3) [97, 98]) editsAndWrite).shared
    (∀ done ∈ s.done, done.GuardKept id) ∧ s.done.length = 3 ∧ Serializable id [97, 98] s := by
  have hfound : Guarded (agents id).step EditFindsItsRead (initial (Fin 3) [97, 98]) editsAndWrite := by decide +kernel
  obtain ⟨hguards, hserializable⟩ := no_lost_update id (Fin 3) [97, 98] editsAndWrite
  exact ⟨hguards, by decide +kernel, hserializable hfound (by decide +kernel)⟩

/-- Both agents read `ab` before either of them writes. -/
def overlappingEdits : List (Action Bool (Call Bytes) ℕ) :=
  [Action.start false (editOf "a" "x"), Action.start true (editOf "b" "y")] ++
    [false, false, true, true].map (Action.advance · 2) ++
    [false, false, false, false].map (Action.advance · 2) ++
    [true, true, true, true].map (Action.advance · 2)

/-- Both calls succeed, and the first edit is gone. -/
theorem overlapping_edits_lost : ¬ ∀ actions : List (Action Bool (Call Bytes) ℕ),
    (run (agents id).step (initial Bool [97, 98]) actions).shared.locked = false →
      Serializable id [97, 98] (run (agents id).step (initial Bool [97, 98]) actions).shared := by
  intro h
  obtain ⟨order, hperm, hreplay⟩ := h overlappingEdits (by decide +kernel)
  have hdone : (run (agents id).step (initial Bool [97, 98]) overlappingEdits).shared.done.map (·.call) =
      [editOf "a" "x", editOf "b" "y"] := by decide +kernel
  have hfile : (run (agents id).step (initial Bool [97, 98]) overlappingEdits).shared.file = [97, 121] := by decide +kernel
  have hfirst : (editOf "a" "x").replay id [97, 98] = some [120, 98] := by decide +kernel
  have hfirst' : (editOf "b" "y").replay id [97, 98] = some [97, 121] := by decide +kernel
  have hsecond : (editOf "b" "y").replay id [120, 98] = some [120, 121] := by decide +kernel
  have hsecond' : (editOf "a" "x").replay id [97, 121] = some [120, 121] := by decide +kernel
  have horders : ∀ order ∈ [editOf "a" "x", editOf "b" "y"].permutations',
      replayAll id order [97, 98] ≠ some [97, 121] := by
    simp [replayAll, hfirst, hfirst', hsecond, hsecond']
  rw [hdone] at hperm
  rw [hfile] at hreplay
  exact horders order (List.mem_permutations'.mpr hperm) hreplay

end
end OpenMinion.FileEdits
