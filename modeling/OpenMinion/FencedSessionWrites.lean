import OpenMinion.SessionStateWrites
import OpenMinion.SessionTurnLeases

/-!
# Fenced writes of concurrent clients

A write that presents a fence token asserts the fence and then runs its transactions, which are separate critical
sections. The history records grants, releases and commits.
-/
namespace OpenMinion.FencedSessionWrites
open FencingTokens IsoTimestamps KeyedTables PythonText SessionEventWrites SessionStateWrites
open SessionTables SessionTurnLeases TransitionRuns

/-- The writes that take `session_turn_fence_token`. -/
inductive FencedWrite where
  | appendTurn (t : AppendTurn)
  | appendEvent (a : AppendEvent)
  | putWorkingState (w : PutWorkingState)
  | updateSummary (u : UpdateSummary)

def FencedWrite.sessionId : FencedWrite → String
  | .appendTurn t => t.sessionId
  | .appendEvent a => a.sessionId
  | .putWorkingState w => w.sessionId
  | .updateSummary u => u.sessionId

inductive Transaction where
  | appendTurn (t : AppendTurn)
  | appendEvent (a : AppendEvent)
  | putWorkingState (w : PutWorkingState)
  | upsertSummary (u : UpdateSummary)

/-- The transactions of a write; `update_summary` commits its row before its event. -/
def FencedWrite.transactions : FencedWrite → List Transaction
  | .appendTurn t => [.appendTurn t]
  | .appendEvent a => [.appendEvent a]
  | .putWorkingState w => [.putWorkingState w]
  | .updateSummary u => [.upsertSummary u, .appendEvent u.event]

def Transaction.apply (rt : Runtime) (db : SessionDb) : Transaction → Except StoreError SessionDb
  | .appendTurn t => (SessionEventWrites.appendTurn rt db t).map Prod.fst
  | .appendEvent a => (SessionEventWrites.appendEvent rt db a).map Prod.fst
  | .putWorkingState w => (SessionStateWrites.putWorkingState db w).map Prod.fst
  | .upsertSummary u => (SessionStateWrites.upsertSummary db u).map Prod.fst

/-- A write whose fence check has passed, with the transactions that it has yet to run. -/
structure CheckedWrite where
  session : String
  token : ℤ
  next : Transaction
  rest : List Transaction

def CheckedWrite.pending (w : CheckedWrite) : Option CheckedWrite :=
  match w.rest with
  | [] => none
  | next :: rest => some { w with next, rest }

inductive Observation where
  | lease (event : LeaseEvent String ℤ)
  | committed (session : String) (token : ℤ)
  deriving DecidableEq

def leaseEvents (history : List Observation) : List (LeaseEvent String ℤ) :=
  history.filterMap fun
    | .lease event => some event
    | .committed _ _ => none

variable {Client : Type}

structure FencedRun (Client : Type) where
  db : SessionDb
  clients : Client → Option CheckedWrite
  history : List Observation

inductive Action (Client : Type) where
  | createSession (c : CreateSession)
  | lease (call : LeaseCall)
  | check (client : Client) (write : FencedWrite) (token : ℤ)
  | commit (client : Client)

namespace FencedRun

def start (db : SessionDb) : FencedRun Client :=
  ⟨{ db with turnLeases := [] }, fun _ => none, []⟩

def leaseCall (σ : FencedRun Client) (call : LeaseCall) : FencedRun Client :=
  let r := LeaseRun.step ⟨σ.db, []⟩ call
  { σ with db := r.db, history := σ.history ++ r.history.map .lease }

section Steps

variable [DecidableEq Client]

def setClient (σ : FencedRun Client) (c : Client) (w : Option CheckedWrite) : FencedRun Client :=
  { σ with clients := Function.update σ.clients c w }

/-- `_assert_session_turn_fence_if_requested`, by an idle client. -/
def check (σ : FencedRun Client) (c : Client) (write : FencedWrite) (token : ℤ) : FencedRun Client :=
  match σ.clients c, assertFence σ.db write.sessionId token, write.transactions with
  | none, .ok _, next :: rest => σ.setClient c (some ⟨strip write.sessionId, token, next, rest⟩)
  | _, _, _ => σ

def commit (rt : Runtime) (σ : FencedRun Client) (c : Client) : FencedRun Client :=
  match σ.clients c with
  | none => σ
  | some w =>
    match w.next.apply rt σ.db with
    | .error _ => σ.setClient c none
    | .ok db =>
      { σ.setClient c w.pending with
        db := db, history := σ.history ++ [.committed w.session w.token] }

def step (rt : Runtime) (σ : FencedRun Client) : Action Client → FencedRun Client
  | .createSession c => { σ with db := committed σ.db (insertSession σ.db c) }
  | .lease call => σ.leaseCall call
  | .check c write token => σ.check c write token
  | .commit c => σ.commit rt c

end Steps

end FencedRun

/-- Every commit with a token comes before the end of the token's grant. -/
def SafeHistory (history : List Observation) : Prop :=
  ∀ before s t after, history = before ++ .committed s t :: after → ¬ Ended (leaseEvents before) s t

/-- No client is between its fence check and its last commit on this session. -/
def Quiet (σ : FencedRun Client) (session : String) : Prop :=
  ∀ c, ∀ w ∈ σ.clients c, w.session ≠ session

/-- A grant needs a quiet session, unless a current lease keeps it from being made, and so does a release that matches
the lease row. -/
def Undisturbed (σ : FencedRun Client) : Action Client → Prop
  | .lease (.acquire a) =>
    match acquireArguments a with
    | .ok args => (currentLease σ.db args.sid args.now).isSome = true ∨ Quiet σ args.sid
    | .error _ => True
  | .lease (.release r) =>
    σ.db.turnLeases.any (presentedFence (strip r.sessionId) (strip r.owner) r.fenceToken) = false ∨
      Quiet σ (strip r.sessionId)
  | _ => True

theorem insertSessionEvent_turnLeases {db db' : SessionDb} {e : NewEvent}
    (h : insertSessionEvent db e = .ok db') : db'.turnLeases = db.turnLeases := by
  rcases insertSessionEvent_ok h with rfl | ⟨-, -, -, rfl⟩ <;> rfl

theorem Transaction.apply_turnLeases {rt : Runtime} {db db' : SessionDb} {t : Transaction}
    (h : t.apply rt db = .ok db') : db'.turnLeases = db.turnLeases := by
  cases t with
  | appendTurn t =>
    rw [Transaction.apply] at h
    obtain ⟨⟨_, id⟩, hok, rfl⟩ := map_eq_ok.mp h
    obtain ⟨role, row, db₁, -, -, -, hinsert, rfl⟩ := appendTurn_ok hok
    have hleases := insertSessionEvent_turnLeases hinsert
    exact hleases
  | appendEvent a =>
    rw [Transaction.apply] at h
    obtain ⟨⟨_, id⟩, hok, rfl⟩ := map_eq_ok.mp h
    obtain ⟨_, _, _, _, db₁, runs, -, hinsert, rfl⟩ := appendEvent_ok hok
    have hleases := insertSessionEvent_turnLeases hinsert
    exact hleases
  | putWorkingState w =>
    rw [Transaction.apply] at h
    obtain ⟨⟨_, version⟩, hok, rfl⟩ := map_eq_ok.mp h
    rw [SessionStateWrites.putWorkingState] at hok
    split at hok
    · obtain ⟨rfl, -⟩ := Prod.mk.inj (Except.ok.inj hok)
      rfl
    · cases hok
  | upsertSummary u =>
    rw [Transaction.apply] at h
    obtain ⟨⟨_, _⟩, hok, rfl⟩ := map_eq_ok.mp h
    rw [SessionStateWrites.upsertSummary] at hok
    split at hok
    · obtain ⟨rfl, -⟩ := Prod.mk.inj (Except.ok.inj hok)
      rfl
    · cases hok

theorem leaseEvents_append (h h' : List Observation) :
    leaseEvents (h ++ h') = leaseEvents h ++ leaseEvents h' := List.filterMap_append

@[simp] theorem leaseEvents_map_lease (events : List (LeaseEvent String ℤ)) :
    leaseEvents (events.map .lease) = events := by
  simp [leaseEvents, List.filterMap_map]

theorem SafeHistory.append {h es : List Observation} (hsafe : SafeHistory h)
    (hes : ∀ before s t after, es = before ++ Observation.committed s t :: after →
      ¬ Ended (leaseEvents (h ++ before)) s t) : SafeHistory (h ++ es) := by
  intro before s t after heq
  rcases List.append_eq_append_iff.mp heq with ⟨mid, rfl, hmid⟩ | ⟨mid, hmid, hrest⟩
  · exact hes mid s t after hmid
  · cases mid with
    | nil =>
      rw [List.append_nil] at hmid
      rw [← hmid, ← List.append_nil h]
      exact hes [] s t after hrest.symm
    | cons o mid =>
      obtain ⟨rfl, -⟩ := List.cons.inj hrest
      exact hsafe before s t mid hmid

theorem SafeHistory.append_lease {h : List Observation} (hsafe : SafeHistory h)
    (events : List (LeaseEvent String ℤ)) : SafeHistory (h ++ events.map .lease) := by
  refine hsafe.append fun before s t after heq => ?_
  have hmem : Observation.committed s t ∈ events.map Observation.lease := by simp [heq]
  obtain ⟨event, -, hevent⟩ := List.mem_map.mp hmem
  cases hevent

theorem SafeHistory.append_committed {h : List Observation} (hsafe : SafeHistory h) {s : String}
    {t : ℤ} (hend : ¬ Ended (leaseEvents h) s t) : SafeHistory (h ++ [Observation.committed s t]) := by
  refine hsafe.append fun before s' t' after heq => ?_
  cases before with
  | nil =>
    obtain ⟨heq, -⟩ := List.cons.inj heq
    obtain ⟨rfl, rfl⟩ := Observation.committed.inj heq
    rwa [List.append_nil]
  | cons o before => simp at heq

/-- The fence of every write in progress is still the one that was checked. -/
structure Fenced (σ : FencedRun Client) : Prop where
  leaseKey : LeaseKey σ.db.turnLeases
  explains : Explains (fenceOf σ.db.turnLeases) (leaseEvents σ.history)
  inProgress : ∀ c, ∀ w ∈ σ.clients c, fenceOf σ.db.turnLeases w.session = held w.token
  safe : SafeHistory σ.history

namespace Fenced

variable {σ : FencedRun Client} {rt : Runtime}

theorem start (db : SessionDb) : Fenced (FencedRun.start db : FencedRun Client) where
  leaseKey := .nil
  explains := .nil _
  inProgress := by simp [FencedRun.start]
  safe := by simp [SafeHistory, FencedRun.start]

theorem leaseCall (h : Fenced σ) (call : LeaseCall)
    (hsame : ∀ c, ∀ w ∈ σ.clients c,
      fenceOf (LeaseRun.step ⟨σ.db, []⟩ call).db.turnLeases w.session =
        fenceOf σ.db.turnLeases w.session) : Fenced (σ.leaseCall call) := by
  obtain ⟨hkey, events, hhistory, hstep⟩ := LeaseRun.stepped (σ := ⟨σ.db, []⟩) h.leaseKey call
  rw [List.nil_append] at hhistory
  refine ⟨hkey, ?_, ?_, ?_⟩
  · simp only [FencedRun.leaseCall, hhistory, leaseEvents_append, leaseEvents_map_lease]
    exact h.explains.step hstep
  · intro c w hw
    exact (hsame c w hw).trans (h.inProgress c w hw)
  · exact h.safe.append_lease _

variable [DecidableEq Client]

theorem setClient (h : Fenced σ) (c : Client) {w : Option CheckedWrite}
    (hw : ∀ w' ∈ w, fenceOf σ.db.turnLeases w'.session = held w'.token) :
    Fenced (σ.setClient c w) := by
  refine ⟨h.leaseKey, h.explains, ?_, h.safe⟩
  intro c' w' hw'
  simp only [FencedRun.setClient] at hw'
  by_cases hc : c' = c
  · subst hc
    rw [Function.update_self] at hw'
    exact hw w' hw'
  · rw [Function.update_of_ne hc] at hw'
    exact h.inProgress c' w' hw'

theorem check (h : Fenced σ) (c : Client) (write : FencedWrite) (token : ℤ) :
    Fenced (σ.check c write token) := by
  rw [FencedRun.check]
  split
  · next hfence _ =>
    refine h.setClient c fun w hw => ?_
    obtain rfl := Option.some.inj hw
    exact assertFence_eq_ok.mp hfence
  · exact h

theorem commit (h : Fenced σ) (c : Client) : Fenced (σ.commit rt c) := by
  rw [FencedRun.commit]
  split
  · exact h
  · next w hw =>
    have hheld := h.inProgress c w hw
    split
    · exact h.setClient c (by simp)
    · next db happly =>
      have hleases := Transaction.apply_turnLeases happly
      have hpending : ∀ w' ∈ w.pending, fenceOf σ.db.turnLeases w'.session = held w'.token := by
        intro w' hw'
        rw [CheckedWrite.pending] at hw'
        split at hw'
        · cases hw'
        · obtain rfl := Option.some.inj hw'
          exact hheld
      have hnext := h.setClient c hpending
      refine ⟨by rw [hleases]; exact h.leaseKey, ?_, ?_, ?_⟩
      · simpa [hleases, leaseEvents] using h.explains
      · simp only [hleases]
        exact hnext.inProgress
      · exact h.safe.append_committed fun hend => h.explains.ne_held hend hheld

end Fenced

section Undisturbed

variable {σ : FencedRun Client}

private theorem fenceOf_acquire (h : Fenced σ) {a : AcquireLease}
    (hok : Undisturbed σ (.lease (.acquire a))) {c : Client} {w : CheckedWrite}
    (hw : w ∈ σ.clients c) :
    fenceOf (LeaseRun.acquire ⟨σ.db, []⟩ a).db.turnLeases w.session =
      fenceOf σ.db.turnLeases w.session := by
  rw [LeaseRun.acquire]
  split
  · next db lease hacq =>
    rw [SessionTurnLeases.acquire] at hacq
    rw [Undisturbed] at hok
    split at hacq
    · next args hargs =>
      rw [hargs] at hok
      obtain ⟨-, -, hfences⟩ := acquireLocked_ok h.leaseKey hacq
      rcases hfences with ⟨-, -, heq⟩ | ⟨hnone, -, heq⟩
      · exact congrFun heq w.session
      · have hquiet : Quiet σ args.sid := by simpa [hnone] using hok
        exact (congrFun heq w.session).trans (Function.update_of_ne (hquiet c w hw) _ _)
    · cases hacq
  · rfl

private theorem fenceOf_release (h : Fenced σ) {r : ReleaseLease}
    (hok : Undisturbed σ (.lease (.release r))) {c : Client} {w : CheckedWrite}
    (hw : w ∈ σ.clients c) :
    fenceOf (LeaseRun.release ⟨σ.db, []⟩ r).db.turnLeases w.session =
      fenceOf σ.db.turnLeases w.session := by
  rw [LeaseRun.release, SessionTurnLeases.release]
  cases leaseExpiry r.now 1 with
  | error e => rfl
  | ok _ =>
    apply (fenceStep_releaseLocked h.leaseKey (strip r.sessionId) (strip r.owner) r.fenceToken r.now).frame
    intro event hevent
    split at hevent
    · next hany =>
      obtain rfl := List.mem_singleton.mp hevent
      rcases hok with hnone | hquiet
      · exact absurd (hany.symm.trans hnone) (by simp)
      · exact (hquiet c w hw).symm
    · cases hevent

end Undisturbed

theorem Fenced.step [DecidableEq Client] {rt : Runtime} {σ : FencedRun Client} (h : Fenced σ)
    (a : Action Client) (hok : Undisturbed σ a) : Fenced (σ.step rt a) := by
  cases a with
  | createSession c =>
    have hleases : (committed σ.db (insertSession σ.db c)).turnLeases = σ.db.turnLeases := by
      rw [insertSession]
      split <;> rfl
    refine ⟨?_, ?_, ?_, h.safe⟩
    · simp only [FencedRun.step, hleases]
      exact h.leaseKey
    · simp only [FencedRun.step, hleases]
      exact h.explains
    · simp only [FencedRun.step, hleases]
      exact h.inProgress
  | lease call =>
    refine h.leaseCall call fun c w hw => ?_
    cases call with
    | acquire a =>
      rw [LeaseRun.step]
      exact fenceOf_acquire h hok hw
    | renew r => exact congrFun (LeaseRun.fenceOf_renew _ r) w.session
    | release r =>
      rw [LeaseRun.step]
      exact fenceOf_release h hok hw
    | assertFence _ _ => rfl
  | check c write token => exact h.check c write token
  | commit c => exact h.commit c

/-- In every run whose schedule is undisturbed, no write commits after its token was superseded or released. -/
theorem fencedWrites_safe_when_undisturbed [DecidableEq Client] (rt : Runtime) (db : SessionDb)
    (actions : List (Action Client))
    (h : Guarded (FencedRun.step rt) Undisturbed (FencedRun.start db) actions) :
    SafeHistory (run (FencedRun.step rt) (FencedRun.start db) actions).history :=
  have hstep : ∀ (σ : FencedRun Client) (a : Action Client), Fenced σ → Undisturbed σ a → Fenced (σ.step rt a) :=
    fun _ a hσ hok => hσ.step a hok
  (h.invariant hstep (Fenced.start db)).safe

def asciiRuntime : Runtime where
  uuid5Hex _ := "00000000000000000000000000000000"
  uuid5Hex_ne _ := zeroHex_ne_empty
  reprOf _ := ""
  lower := String.map Char.toLower
  redactSensitiveText := id
  parseInt := String.toInt?
  stepTaskId _ _ := .error (.valueError "task plan start requires an active plan")

def turnStart : DateTime := ⟨63919965600000000, tenOClock_lt_endOfTime⟩

def afterExpiry : DateTime := ⟨63919965661000000, by decide⟩

def lateTurn : AppendTurn where
  sessionId := "s"
  role := "user"
  content := "late"
  turnId := "t1"
  freshEventId := "e1"
  now := turnStart

/-- A client checks its fence; its lease expires and another client is granted the next
token; then the first client commits. -/
def overtakenWrite : List (Action Bool) :=
  [.createSession { sessionId := some "s", freshId := "", now := turnStart },
    .lease (.acquire { sessionId := "s", owner := "a", requestId := "r1", now := turnStart }),
    .check false (.appendTurn lateTurn) 1,
    .lease (.acquire { sessionId := "s", owner := "b", requestId := "r2", now := afterExpiry }),
    .commit false]

/-- The fence check and the write are two critical sections, and a grant fits between. -/
theorem fencedWrites_not_safe :
    ¬ SafeHistory (run (FencedRun.step asciiRuntime) (FencedRun.start {}) overtakenWrite).history := by
  have hhistory : (run (FencedRun.step asciiRuntime) (FencedRun.start {}) overtakenWrite).history =
      [.lease (.granted "s" 1), .lease (.granted "s" 2), .committed "s" 1] := by decide +kernel
  rw [hhistory]
  intro hsafe
  refine hsafe [.lease (.granted "s" 1), .lease (.granted "s" 2)] "s" 1 [] rfl (.inl ⟨2, ?_, ?_⟩)
  · decide
  · decide

def undisturbedWrite : List (Action Bool) :=
  [.createSession { sessionId := some "s", freshId := "", now := turnStart },
    .lease (.acquire { sessionId := "s", owner := "a", requestId := "r1", now := turnStart }),
    .check false (.appendTurn lateTurn) 1,
    .commit false,
    .lease (.acquire { sessionId := "s", owner := "b", requestId := "r2", now := afterExpiry })]

theorem undisturbed_of_idle {σ : FencedRun Client} (hidle : ∀ c, (σ.clients c).isNone = true)
    (a : Action Client) : Undisturbed σ a := by
  have hquiet : ∀ session, Quiet σ session := by
    intro session c w hw
    have hnone := hidle c
    rw [Option.mem_def.mp hw] at hnone
    cases hnone
  rw [Undisturbed.eq_def]
  split
  · split
    · exact .inr (hquiet _)
    · trivial
  · exact .inr (hquiet _)
  · trivial

theorem fencedWrites_safe_undisturbedWrite :
    Guarded (FencedRun.step asciiRuntime) Undisturbed (FencedRun.start {}) undisturbedWrite ∧
    (run (FencedRun.step asciiRuntime) (FencedRun.start {}) undisturbedWrite).history =
      [.lease (.granted "s" 1), .committed "s" 1, .lease (.granted "s" 2)] ∧
    SafeHistory (run (FencedRun.step asciiRuntime) (FencedRun.start {}) undisturbedWrite).history := by
  have hguarded :
      Guarded (FencedRun.step asciiRuntime) Undisturbed (FencedRun.start {}) undisturbedWrite := by
    refine .cons trivial (.cons ?_ (.cons trivial (.cons trivial (.cons ?_ (.nil _)))))
    · exact undisturbed_of_idle (by decide +kernel) _
    · exact undisturbed_of_idle (by decide +kernel) _
  exact ⟨hguarded, by decide +kernel, fencedWrites_safe_when_undisturbed asciiRuntime {} undisturbedWrite hguarded⟩

end OpenMinion.FencedSessionWrites
