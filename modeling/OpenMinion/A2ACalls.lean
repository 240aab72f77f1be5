import OpenMinion.A2AStateStore
import OpenMinion.InterleavedThreads
import OpenMinion.IsoTimestamps

/-!
# Agent-to-agent calls

`A2ARuntime.call` over a state store that any number of runtimes share. Handlers, artifact stores and the fate of
receipts are choices of the environment; a process that stops is a thread that takes no further step.
-/
namespace OpenMinion.A2ACalls
open A2AStateStore InterleavedThreads IsoTimestamps JsonValues PythonText TransitionRuns

structure Envelope where
  type : String
  fromAgent : String
  method : String
  params : Dict := []
  idempotencyKey : String
  traceId : String := ""
  timeoutMs : ℤ := 30000
  sessionId : String := ""
  deriving DecidableEq

structure Response where
  fromAgent : String
  toAgent : String
  method : String
  params : Dict
  timeoutMs : ℤ
  idempotencyKey : String
  traceId : String
  metadata : Dict
  deriving DecidableEq

structure A2AError where
  code : String
  message : String
  details : Dict := []
  deriving DecidableEq

def A2AError.toDict (e : A2AError) : Dict :=
  [("code", Json.str e.code), ("message", Json.str e.message)] ++ if e.details = [] then [] else [("details", Json.dict e.details)]

@[irreducible] def idempotencyScope (e : Envelope) (resolvedAgent : String) : String :=
  let baseScope := e.type ++ ":" ++ resolvedAgent ++ ":" ++ e.method
  if strip e.sessionId = "" then baseScope else baseScope ++ ":" ++ strip e.sessionId

def idempotencySlotIsStale (updatedAt now : DateTime) (staleAfterSec : ℤ) : Bool :=
  (now.micros : ℤ) - updatedAt.micros > max 1 staleAfterSec * 1000000

section Results

variable (request : Envelope) (resolvedAgent : String)

def resultEnvelope (params metadata : Dict) : Response :=
  ⟨resolvedAgent, request.fromAgent, request.method, params, request.timeoutMs, request.idempotencyKey, request.traceId,
    metadata⟩

def successResultEnvelope (resultInline : Option Dict) (resultRef : Option String) (cached : Bool) : Response :=
  let data : Dict := match resultInline, resultRef with
    | some result, _ => result
    | none, some ref => if ref = "" then [] else [("result_ref", .str ref)]
    | none, none => []
  resultEnvelope request resolvedAgent
    [("ok", .bool true), ("status", .str statusSuccess), ("cached", .bool cached), ("data", .dict data)]
    [("cached", .bool cached)]

/-- The entry `task_id` of a result, for an id that is not empty. -/
def taskIdEntry (taskId : Option String) : Dict :=
  match taskId with
  | none => []
  | some id => if id = "" then [] else [("task_id", .str id)]

def errorResultEnvelope (error : Dict) (cached : Bool) (taskId : Option String) : Response :=
  let status := if Dict.has error "code" then Dict.get error "code" else .str "FAILED"
  resultEnvelope request resolvedAgent
    ([("ok", .bool false), ("status", status), ("cached", .bool cached), ("error", .dict error)] ++ taskIdEntry taskId)
    [("cached", .bool cached), ("error", .bool true)]

def inProgressResultEnvelope (taskId : Option String) (cached : Bool) : Response :=
  let data : Dict := match taskId with
    | none => []
    | some id => [("task_id", .str id)]
  resultEnvelope request resolvedAgent
    ([("ok", Json.bool false), ("status", Json.str "IN_PROGRESS"), ("cached", Json.bool cached), ("data", Json.dict data)] ++ data)
    [("cached", .bool cached), ("in_progress", .bool true)]

def unknownCallResult (cached : Bool) : Response :=
  errorResultEnvelope request resolvedAgent
    (A2AError.toDict ⟨"OUTCOME_UNKNOWN", "Call outcome is unknown; reconcile the effect before reissuing.", []⟩) cached none

def resultFromIdempotency (existing : IdempotencyRecord DateTime) (now : DateTime) (staleAfterSec : ℤ) : Response :=
  if existing.status = statusSuccess then
    successResultEnvelope request resolvedAgent existing.resultInline existing.resultRef true
  else if existing.status = statusFailed ∨ existing.status = statusCanceled then
    let fallbackCode := if existing.status = statusFailed then "FAILED" else "CANCELED"
    let error := match existing.error with
      | none | some [] => A2AError.toDict ⟨fallbackCode, "Cached failure", []⟩
      | some error => error
    errorResultEnvelope request resolvedAgent error true existing.taskId
  else if idempotencySlotIsStale existing.updatedAt now staleAfterSec then unknownCallResult request resolvedAgent true
  else inProgressResultEnvelope request resolvedAgent existing.taskId true

end Results

/-- What `_store_result_if_needed` makes of the result of a handler. -/
inductive Storage where
  | inline
  | artifact (ref : String)
  | fails
  deriving DecidableEq

inductive HandlerOutcome where
  | returns (result : Dict) (storage : Storage)
  | raisesA2A (error : A2AError)
  | raises (message : String)
  deriving DecidableEq

/-- The arguments of `finish_idempotency` after the handler. -/
def HandlerOutcome.receipt : HandlerOutcome → Receipt
  | .returns result .inline => { status := statusSuccess, resultInline := some result }
  | .returns _ (.artifact ref) => { status := statusSuccess, resultRef := some ref }
  | .returns _ .fails =>
    { status := statusFailed
      error := some (A2AError.toDict
        ⟨"OUTCOME_UNKNOWN", "Call result could not be stored; reconcile the effect before reissuing.", []⟩) }
  | .raisesA2A error => { status := statusFailed, error := some error.toDict }
  | .raises message => { status := statusFailed, error := some (A2AError.toDict ⟨"HANDLER_ERROR", message, []⟩) }

def receiptResponse (request : Envelope) (resolvedAgent : String) (receipt : Receipt) (cached : Bool) : Response :=
  match receipt.error with
  | some error => errorResultEnvelope request resolvedAgent error cached none
  | none => successResultEnvelope request resolvedAgent receipt.resultInline receipt.resultRef cached

structure CallState where
  rows : IdempotencyTable DateTime
  invoked : List (String × String) := []

inductive Place where
  | idle (response : Option (Except A2AError Response))
  | reserved (e : Envelope) (resolvedAgent : String) (reservation : IdempotencyRecord DateTime)
  | executing (e : Envelope) (resolvedAgent : String) (reservation : IdempotencyRecord DateTime)
  | finishing (e : Envelope) (resolvedAgent : String) (reservation : IdempotencyRecord DateTime) (receipt : Receipt)

/-- A call, where `admitted` is the agent that validation, registry and policy of its runtime
come to or the error that they raise. Jobs share the table with the calls. -/
inductive Op where
  | call (e : Envelope) (admitted : Except A2AError String) (now : DateTime) (staleAfterSec : ℤ)
  | reserveJob (e : Envelope) (resolvedAgent : String) (now : DateTime)
  | writeJobResult (e : Envelope) (resolvedAgent : String) (receipt : Receipt) (taskId : Option String) (now : DateTime)

/-- The statement was executed, failed before it took effect, or took effect and failed. -/
inductive WriteFate where
  | written
  | lost
  | unconfirmed

inductive Choice where
  | invoke
  | handled (outcome : HandlerOutcome)
  | receipt (now : DateTime) (fate : WriteFate)

/-- `A2ARuntime.call`, up to the end of `reserve_idempotency`. -/
def call (s : CallState) (e : Envelope) (admitted : Except A2AError String) (now : DateTime) (staleAfterSec : ℤ) :
    CallState × Place :=
  if e.type ≠ "call" then
    (s, .idle (some (.error ⟨"INVALID_ARGUMENT", "Envelope type must be 'call' for call()", []⟩)))
  else match admitted with
    | .error error => (s, .idle (some (.error error)))
    | .ok agent =>
      match reserveIdempotency s.rows e.idempotencyKey (idempotencyScope e agent) now with
      | ((_, none), rows) => ({ s with rows }, .idle (some (.ok (unknownCallResult e agent false))))
      | ((false, some record), rows) =>
        ({ s with rows }, .idle (some (.ok (resultFromIdempotency e agent record now staleAfterSec))))
      | ((true, some record), rows) => ({ s with rows }, .reserved e agent record)

/-- What jobs write has the scope of a `job.start` envelope. -/
def begin (s : CallState) : Op → CallState × Place
  | .call e admitted now staleAfterSec => call s e admitted now staleAfterSec
  | .reserveJob e agent now =>
    let scope := idempotencyScope { e with type := "job.start" } agent
    ({ s with rows := (reserveIdempotency s.rows e.idempotencyKey scope now).2 }, .idle none)
  | .writeJobResult e agent receipt taskId now =>
    let scope := idempotencyScope { e with type := "job.start" } agent
    ({ s with rows := (setIdempotencyResult s.rows e.idempotencyKey scope receipt taskId now).2 }, .idle none)

/-- The steps of `_execute_call_handler`. A choice for another place changes nothing. -/
def next (s : CallState) (place : Place) (choice : Choice) : CallState × Place :=
  match place, choice with
  | .reserved e agent reservation, .invoke =>
    ({ s with invoked := s.invoked ++ [reservation.slot] }, .executing e agent reservation)
  | .executing e agent reservation, .handled outcome => (s, .finishing e agent reservation outcome.receipt)
  | .finishing e agent reservation receipt, .receipt now .written =>
    let (finished, rows) := finishIdempotency s.rows reservation receipt now
    ({ s with rows },
      .idle (some (.ok (if finished then receiptResponse e agent receipt false else unknownCallResult e agent false))))
  | .finishing e agent _ _, .receipt _ .lost => (s, .idle (some (.ok (unknownCallResult e agent false))))
  | .finishing e agent reservation receipt, .receipt now .unconfirmed =>
    ({ s with rows := (finishIdempotency s.rows reservation receipt now).2 },
      .idle (some (.ok (unknownCallResult e agent false))))
  | place, _ => (s, place)

def calls : Threads CallState Place Op Choice where
  isIdle
    | .idle _ => true
    | _ => false
  begin := begin
  next := next

def initial (Thread : Type) (rows : IdempotencyTable DateTime) : System Thread CallState Place :=
  ⟨⟨rows, []⟩, fun _ => .idle none⟩

theorem head_idempotencyScope_call {e : Envelope} (h : e.type = "call") (agent : String) :
    (idempotencyScope e agent).toList.head? = some 'c' := by
  rw [idempotencyScope]
  split <;> simp [h]

theorem head_idempotencyScope_job (e : Envelope) (agent : String) :
    (idempotencyScope { e with type := "job.start" } agent).toList.head? = some 'j' := by
  rw [idempotencyScope]
  split <;> simp

theorem callScope_ne_jobScope {e : Envelope} (h : e.type = "call") (agent : String) (e' : Envelope) (agent' : String) :
    idempotencyScope e agent ≠ idempotencyScope { e' with type := "job.start" } agent' := by
  intro heq
  have hhead := head_idempotencyScope_call h agent
  rw [heq, head_idempotencyScope_job] at hhead
  cases hhead

section CallCases

variable {s : CallState} {e : Envelope} {agent : String} {now : DateTime} {staleAfterSec : ℤ}

theorem call_of_some (htype : e.type = "call") {record : IdempotencyRecord DateTime}
    (hrow : getIdempotency s.rows (idempotencyScope e agent) e.idempotencyKey = some record) :
    call s e (.ok agent) now staleAfterSec =
      (s, .idle (some (.ok (resultFromIdempotency e agent record now staleAfterSec)))) := by
  simp [call, htype, reserveIdempotency_of_some hrow]

theorem call_of_none (htype : e.type = "call")
    (hrow : getIdempotency s.rows (idempotencyScope e agent) e.idempotencyKey = none) :
    call s e (.ok agent) now staleAfterSec =
      ({ s with rows := s.rows ++ [inProgressIdempotency e.idempotencyKey (idempotencyScope e agent) now] },
        .reserved e agent (inProgressIdempotency e.idempotencyKey (idempotencyScope e agent) now)) := by
  simp [call, htype, reserveIdempotency_of_none hrow]

theorem call_cases (s : CallState) (e : Envelope) (admitted : Except A2AError String) (now : DateTime)
    (staleAfterSec : ℤ) :
    (∃ response, call s e admitted now staleAfterSec = (s, .idle response)) ∨
    ∃ agent, e.type = "call" ∧ getIdempotency s.rows (idempotencyScope e agent) e.idempotencyKey = none ∧
      call s e admitted now staleAfterSec =
        ({ s with rows := s.rows ++ [inProgressIdempotency e.idempotencyKey (idempotencyScope e agent) now] },
          .reserved e agent (inProgressIdempotency e.idempotencyKey (idempotencyScope e agent) now)) := by
  by_cases htype : e.type = "call"
  · cases admitted with
    | error error =>
      refine .inl ⟨some (.error error), ?_⟩
      simp [call, htype]
    | ok agent =>
      cases hrow : getIdempotency s.rows (idempotencyScope e agent) e.idempotencyKey with
      | none => exact .inr ⟨agent, htype, hrow, call_of_none htype hrow⟩
      | some record => exact .inl ⟨_, call_of_some htype hrow⟩
  · exact .inl ⟨_, if_pos htype⟩

end CallCases

/-- The slot of a call has a row that is no longer in progress. -/
structure Recorded (rows : IdempotencyTable DateTime) (scope key : String) (record : IdempotencyRecord DateTime) : Prop where
  row : getIdempotency rows scope key = some record
  finished : record.status ≠ statusInProgress

section Recorded

variable {s : CallState} {scope key : String} {record : IdempotencyRecord DateTime}

theorem Recorded.append (h : Recorded s.rows scope key record) (row : IdempotencyRecord DateTime) :
    Recorded (s.rows ++ [row]) scope key record := by
  refine ⟨?_, h.finished⟩
  rw [getIdempotency_append, h.row]
  rfl

theorem Recorded.finish (h : Recorded s.rows scope key record) (reservation : IdempotencyRecord DateTime)
    (receipt : Receipt) (now : DateTime) :
    Recorded (finishIdempotency s.rows reservation receipt now).2 scope key record := by
  refine ⟨?_, h.finished⟩
  have hpending : isPending reservation record ≠ true := fun hpending => h.finished (isPending_iff.mp hpending).2.1
  rw [getIdempotency_finishIdempotency, h.row, Option.map_some, if_neg hpending]

theorem Recorded.begin {e : Envelope} {agent : String} (htype : e.type = "call")
    (h : Recorded s.rows (idempotencyScope e agent) key record) (op : Op) :
    Recorded (A2ACalls.begin s op).1.rows (idempotencyScope e agent) key record := by
  cases op with
  | call e' admitted now staleAfterSec =>
    rw [A2ACalls.begin]
    rcases call_cases s e' admitted now staleAfterSec with ⟨response, heq⟩ | ⟨agent', -, -, heq⟩
    · rw [heq]
      exact h
    · rw [heq]
      exact h.append _
  | reserveJob e' agent' now =>
    have hrows : (A2ACalls.begin s (.reserveJob e' agent' now)).1.rows =
        (reserveIdempotency s.rows e'.idempotencyKey (idempotencyScope { e' with type := "job.start" } agent') now).2 := rfl
    rw [hrows, reserveIdempotency]
    split
    · exact h
    · exact h.append _
  | writeJobResult e' agent' receipt taskId now =>
    refine ⟨?_, h.finished⟩
    rw [A2ACalls.begin, snd_setIdempotencyResult, getIdempotency_upsertResult, if_neg]
    · exact h.row
    · intro heq
      exact callScope_ne_jobScope htype agent e' agent' (Prod.mk.inj heq).1

theorem Recorded.next (h : Recorded s.rows scope key record) (place : Place) (choice : Choice) :
    Recorded (A2ACalls.next s place choice).1.rows scope key record := by
  rw [A2ACalls.next.eq_def]
  split
  · exact h
  · exact h
  · exact h.finish _ _ _
  · exact h
  · exact h.finish _ _ _
  · exact h

end Recorded

/-- The row of the slot is pending since the reservation. -/
structure Owned (s : CallState) (e : Envelope) (agent : String) (reservation : IdempotencyRecord DateTime) : Prop where
  type : e.type = "call"
  slot : reservation.slot = (idempotencyScope e agent, e.idempotencyKey)
  row : ∃ row, getIdempotency s.rows reservation.scope reservation.key = some row ∧
    isPending reservation row = true ∧ row.taskId = none

def PlaceOk (s : CallState) : Place → Prop
  | .idle _ => True
  | .reserved e agent reservation => Owned s e agent reservation ∧ reservation.slot ∉ s.invoked
  | .executing e agent reservation => Owned s e agent reservation
  | .finishing e agent reservation receipt =>
    Owned s e agent reservation ∧ ∃ outcome : HandlerOutcome, receipt = outcome.receipt

/-- A handler is invoked once, for a slot that has a row. -/
structure InvokedOnce (s : CallState) : Prop where
  once : ∀ slot, s.invoked.count slot ≤ 1
  row : ∀ slot ∈ s.invoked, getIdempotency s.rows slot.1 slot.2 ≠ none

def heldSlot : Place → Option (String × String)
  | .idle _ => none
  | .reserved _ _ reservation | .executing _ _ reservation | .finishing _ _ reservation _ => some reservation.slot

section Frames

variable {s s' : CallState}

theorem Owned.frame {e : Envelope} {agent : String} {reservation : IdempotencyRecord DateTime}
    (h : Owned s e agent reservation)
    (hrow : getIdempotency s'.rows reservation.scope reservation.key =
      getIdempotency s.rows reservation.scope reservation.key) : Owned s' e agent reservation := by
  refine ⟨h.type, h.slot, ?_⟩
  rw [hrow]
  exact h.row

theorem PlaceOk.frame {place : Place} (h : PlaceOk s place)
    (hrow : ∀ slot, heldSlot place = some slot → getIdempotency s'.rows slot.1 slot.2 = getIdempotency s.rows slot.1 slot.2)
    (hinvoked : ∀ slot, heldSlot place = some slot → slot ∉ s.invoked → slot ∉ s'.invoked) : PlaceOk s' place := by
  cases place with
  | idle response => trivial
  | reserved e agent reservation => exact ⟨h.1.frame (hrow _ rfl), hinvoked _ rfl h.2⟩
  | executing e agent reservation => exact Owned.frame h (hrow _ rfl)
  | finishing e agent reservation receipt => exact ⟨h.1.frame (hrow _ rfl), h.2⟩

theorem PlaceOk.held {place : Place} (h : PlaceOk s place) {slot : String × String} (hheld : heldSlot place = some slot) :
    (∃ e agent, e.type = "call" ∧ slot.1 = idempotencyScope e agent) ∧ getIdempotency s.rows slot.1 slot.2 ≠ none := by
  have howned : ∀ {e agent reservation}, Owned s e agent reservation → some reservation.slot = some slot →
      (∃ e agent, e.type = "call" ∧ slot.1 = idempotencyScope e agent) ∧ getIdempotency s.rows slot.1 slot.2 ≠ none := by
    intro e agent reservation h hslot
    obtain rfl := Option.some.inj hslot
    obtain ⟨row, hrow, -⟩ := h.row
    refine ⟨⟨e, agent, h.type, congrArg Prod.fst h.slot⟩, ?_⟩
    have hsome : getIdempotency s.rows reservation.slot.1 reservation.slot.2 = some row := hrow
    rw [hsome]
    exact Option.some_ne_none row
  cases place with
  | idle response => cases hheld
  | reserved e agent reservation => exact howned h.1 hheld
  | executing e agent reservation => exact howned h hheld
  | finishing e agent reservation receipt => exact howned h.1 hheld

theorem InvokedOnce.frame (h : InvokedOnce s) (hinvoked : s'.invoked = s.invoked)
    (hrow : ∀ slot : String × String, getIdempotency s.rows slot.1 slot.2 ≠ none →
      getIdempotency s'.rows slot.1 slot.2 ≠ none) : InvokedOnce s' := by
  constructor
  · rw [hinvoked]
    exact h.once
  · intro slot hslot
    rw [hinvoked] at hslot
    exact hrow slot (h.row slot hslot)

end Frames

variable {Thread : Type} [DecidableEq Thread]

/-- The assertions at all places, and no slot with two owners. -/
structure CallsOk (σ : System Thread CallState Place) : Prop where
  annotated : Annotated InvokedOnce PlaceOk σ
  exclusive : Exclusive heldSlot σ

section Steps

variable {σ : System Thread CallState Place} {t : Thread}

theorem getIdempotency_append_of_ne_none {rows : IdempotencyTable DateTime} {slot : String × String}
    (h : getIdempotency rows slot.1 slot.2 ≠ none) (row : IdempotencyRecord DateTime) :
    getIdempotency (rows ++ [row]) slot.1 slot.2 = getIdempotency rows slot.1 slot.2 := by
  rw [getIdempotency_append]
  cases hrow : getIdempotency rows slot.1 slot.2 with
  | none => exact absurd hrow h
  | some row' => rfl

theorem owned_append {s : CallState} {e : Envelope} {agent : String} (htype : e.type = "call")
    (hnone : getIdempotency s.rows (idempotencyScope e agent) e.idempotencyKey = none) (now : DateTime) :
    Owned { s with rows := s.rows ++ [inProgressIdempotency e.idempotencyKey (idempotencyScope e agent) now] } e agent
      (inProgressIdempotency e.idempotencyKey (idempotencyScope e agent) now) := by
  exact ⟨htype, slot_inProgressIdempotency _ _ now, _, getIdempotency_append_inProgress hnone now,
    isPending_inProgress _ _ now, rfl⟩

theorem CallsOk.append (h : CallsOk σ) (row : IdempotencyRecord DateTime) {place : Place}
    (hown : PlaceOk { σ.shared with rows := σ.shared.rows ++ [row] } place)
    (hheld : ∀ slot, heldSlot place = some slot → getIdempotency σ.shared.rows slot.1 slot.2 = none) :
    CallsOk (σ.become t ({ σ.shared with rows := σ.shared.rows ++ [row] }, place)) := by
  refine ⟨Keeps.annotated ⟨?_, hown, ?_⟩, h.exclusive.become ?_⟩
  · refine h.annotated.shared.frame rfl fun slot hslot => ?_
    rw [getIdempotency_append_of_ne_none hslot]
    exact hslot
  · intro t' _
    refine (h.annotated.threads t').frame ?_ fun _ _ hnot => hnot
    intro slot hslot
    exact getIdempotency_append_of_ne_none ((h.annotated.threads t').held hslot).2 row
  · intro slot hslot
    refine .inr fun t' _ hother => ?_
    exact ((h.annotated.threads t').held hother).2 (hheld slot hslot)

theorem CallsOk.move (h : CallsOk σ) {place : Place} (hown : PlaceOk σ.shared place)
    (hheld : ∀ slot, heldSlot place = some slot → heldSlot (σ.threads t) = some slot) :
    CallsOk (σ.become t (σ.shared, place)) :=
  ⟨(h.annotated.move hown).annotated, h.exclusive.become fun slot hslot => .inl (hheld slot hslot)⟩

theorem CallsOk.begin (h : CallsOk σ) (op : Op) :
    CallsOk (σ.become t (A2ACalls.begin σ.shared op)) := by
  cases op with
  | call e admitted now staleAfterSec =>
    rw [A2ACalls.begin]
    rcases call_cases σ.shared e admitted now staleAfterSec with ⟨response, heq⟩ | ⟨agent, htype, hnone, heq⟩
    · rw [heq]
      exact h.move trivial (by simp [heldSlot])
    · rw [heq]
      refine h.append _ ⟨owned_append htype hnone now, fun hinvoked => ?_⟩ ?_
      · exact h.annotated.shared.row _ hinvoked hnone
      · intro slot hslot
        obtain rfl := Option.some.inj hslot
        exact hnone
  | reserveJob e agent now =>
    cases hrow : getIdempotency σ.shared.rows (idempotencyScope { e with type := "job.start" } agent) e.idempotencyKey with
    | none =>
      simp only [A2ACalls.begin, reserveIdempotency_of_none hrow]
      exact h.append _ trivial (by simp [heldSlot])
    | some row =>
      simp only [A2ACalls.begin, reserveIdempotency_of_some hrow]
      exact h.move trivial (by simp [heldSlot])
  | writeJobResult e agent receipt taskId now =>
    simp only [A2ACalls.begin, snd_setIdempotencyResult]
    refine ⟨Keeps.annotated ⟨?_, trivial, ?_⟩, h.exclusive.become (by simp [heldSlot])⟩
    · refine h.annotated.shared.frame rfl fun slot hslot => ?_
      rw [getIdempotency_upsertResult]
      split
      · exact Option.some_ne_none _
      · exact hslot
    · intro t' _
      refine (h.annotated.threads t').frame ?_ fun _ _ hnot => hnot
      intro slot hslot
      obtain ⟨⟨e', agent', htype, hscope⟩, -⟩ := (h.annotated.threads t').held hslot
      rw [getIdempotency_upsertResult, if_neg]
      intro heq
      rw [hscope] at heq
      exact callScope_ne_jobScope htype agent' e agent (Prod.mk.inj heq).1

theorem CallsOk.invoke (h : CallsOk σ) {e : Envelope} {agent : String} {reservation : IdempotencyRecord DateTime}
    (hplace : σ.threads t = .reserved e agent reservation) :
    CallsOk (σ.become t (A2ACalls.next σ.shared (.reserved e agent reservation) .invoke)) := by
  have hown : PlaceOk σ.shared (.reserved e agent reservation) := hplace ▸ h.annotated.threads t
  have hheld : heldSlot (σ.threads t) = some reservation.slot := by rw [hplace, heldSlot]
  refine ⟨Keeps.annotated ⟨⟨?_, ?_⟩, hown.1.frame rfl, ?_⟩, h.exclusive.become fun slot hslot => .inl (hheld.trans hslot)⟩
  · intro slot
    have honce := h.annotated.shared.once slot
    rw [A2ACalls.next, List.count_append]
    by_cases heq : reservation.slot = slot
    · subst heq
      rw [List.count_eq_zero_of_not_mem hown.2, List.count_singleton_self]
    · rw [List.count_singleton, if_neg (by simpa using heq)]
      exact honce
  · intro slot hslot
    rcases List.mem_append.mp hslot with hslot | hslot
    · exact h.annotated.shared.row slot hslot
    · rw [List.mem_singleton.mp hslot]
      exact (hown.held rfl).2
  · intro t' ht'
    refine (h.annotated.threads t').frame (fun _ _ => rfl) fun slot hslot hnot hinvoked => ?_
    rcases List.mem_append.mp hinvoked with hinvoked | hinvoked
    · exact hnot hinvoked
    · rw [List.mem_singleton.mp hinvoked] at hslot
      exact ht' (h.exclusive t' t _ hslot hheld)

theorem CallsOk.finish (h : CallsOk σ) {e : Envelope} {agent : String} {reservation : IdempotencyRecord DateTime}
    {receipt : Receipt} (hplace : σ.threads t = .finishing e agent reservation receipt) (now : DateTime)
    (response : Option (Except A2AError Response)) :
    CallsOk (σ.become t ({ σ.shared with rows := (finishIdempotency σ.shared.rows reservation receipt now).2 },
      .idle response)) := by
  have hheld : heldSlot (σ.threads t) = some reservation.slot := by rw [hplace, heldSlot]
  refine ⟨Keeps.annotated ⟨?_, trivial, ?_⟩, h.exclusive.become (by simp [heldSlot])⟩
  · refine h.annotated.shared.frame rfl fun slot hslot => ?_
    rw [getIdempotency_finishIdempotency]
    exact fun hnone => hslot (Option.map_eq_none_iff.mp hnone)
  · intro t' ht'
    refine (h.annotated.threads t').frame ?_ fun _ _ hnot => hnot
    intro slot hslot
    rw [getIdempotency_finishIdempotency]
    cases hrow : getIdempotency σ.shared.rows slot.1 slot.2 with
    | none => rfl
    | some row =>
      rw [Option.map_some, if_neg]
      intro hpending
      have heq : slot = reservation.slot := (slot_getIdempotency hrow).symm.trans (isPending_iff.mp hpending).1
      rw [heq] at hslot
      exact ht' (h.exclusive t' t _ hslot hheld)

theorem CallsOk.next (h : CallsOk σ) (choice : Choice) :
    CallsOk (σ.become t (A2ACalls.next σ.shared (σ.threads t) choice)) := by
  cases hplace : σ.threads t with
  | idle response => exact h.move trivial (by simp [heldSlot])
  | reserved e agent reservation =>
    have hstay : CallsOk (σ.become t (σ.shared, .reserved e agent reservation)) :=
      h.move (hplace ▸ h.annotated.threads t) (by simp [hplace])
    cases choice with
    | invoke => exact h.invoke hplace
    | handled outcome => exact hstay
    | receipt now fate => exact hstay
  | executing e agent reservation =>
    have hown : PlaceOk σ.shared (.executing e agent reservation) := hplace ▸ h.annotated.threads t
    have hstay : CallsOk (σ.become t (σ.shared, .executing e agent reservation)) := h.move hown (by simp [hplace])
    cases choice with
    | invoke => exact hstay
    | handled outcome => exact h.move ⟨hown, outcome, rfl⟩ (by simp [hplace, heldSlot])
    | receipt now fate => exact hstay
  | finishing e agent reservation receipt =>
    have hstay : CallsOk (σ.become t (σ.shared, .finishing e agent reservation receipt)) :=
      h.move (hplace ▸ h.annotated.threads t) (by simp [hplace])
    cases choice with
    | invoke => exact hstay
    | handled outcome => exact hstay
    | receipt now fate =>
      cases fate with
      | written => exact h.finish hplace now _
      | lost => exact h.move trivial (by simp [heldSlot])
      | unconfirmed => exact h.finish hplace now _

theorem CallsOk.step (h : CallsOk σ) (action : Action Thread Op Choice) : CallsOk (calls.step σ action) := by
  cases action with
  | start t op =>
    rw [Threads.step]
    split
    · next hidle => exact h.begin op
    · exact h
  | advance t choice => exact h.next choice

end Steps

omit [DecidableEq Thread] in
theorem callsOk_initial (rows : IdempotencyTable DateTime) : CallsOk (initial Thread rows) where
  annotated := ⟨⟨by simp [initial], by simp [initial]⟩, fun _ => trivial⟩
  exclusive := by
    intro t t' slot hheld
    cases hheld

theorem callsOk_run (rows : IdempotencyTable DateTime) (actions : List (Action Thread Op Choice)) :
    CallsOk (run calls.step (initial Thread rows) actions) := by
  have hinitial : CallsOk (initial Thread rows) := callsOk_initial rows
  refine run_invariant ?_ hinitial actions
  intro σ action h
  exact h.step action

theorem Recorded.run {e : Envelope} {agent key : String} {record : IdempotencyRecord DateTime} (htype : e.type = "call")
    {σ : System Thread CallState Place} (h : Recorded σ.shared.rows (idempotencyScope e agent) key record)
    (actions : List (Action Thread Op Choice)) :
    Recorded (TransitionRuns.run calls.step σ actions).shared.rows (idempotencyScope e agent) key record := by
  refine run_invariant (I := fun σ : System Thread CallState Place =>
    Recorded σ.shared.rows (idempotencyScope e agent) key record) ?_ h actions
  intro σ action hσ
  cases action with
  | start t op =>
    rw [Threads.step]
    split
    · exact hσ.begin htype op
    · exact hσ
  | advance t choice => exact hσ.next (σ.threads t) choice

/-- What a row says that a receipt was written to. -/
structure Carries (record : IdempotencyRecord DateTime) (receipt : Receipt) : Prop where
  status : record.status = receipt.status
  resultInline : record.resultInline = receipt.resultInline
  resultRef : record.resultRef = receipt.resultRef
  error : record.error = receipt.error
  taskId : record.taskId = none

theorem HandlerOutcome.status_receipt (outcome : HandlerOutcome) :
    outcome.receipt.status = statusSuccess ∧ outcome.receipt.error = none ∨
      outcome.receipt.status = statusFailed ∧ ∃ item rest, outcome.receipt.error = some (item :: rest) := by
  cases outcome with
  | returns result storage =>
    cases storage with
    | inline => exact .inl ⟨rfl, rfl⟩
    | artifact ref => exact .inl ⟨rfl, rfl⟩
    | fails => exact .inr ⟨rfl, _, _, rfl⟩
  | raisesA2A error => exact .inr ⟨rfl, _, _, rfl⟩
  | raises message => exact .inr ⟨rfl, _, _, rfl⟩

theorem HandlerOutcome.finished_receipt (outcome : HandlerOutcome) : outcome.receipt.status ≠ statusInProgress := by
  rcases outcome.status_receipt with ⟨hstatus, -⟩ | ⟨hstatus, -⟩
  · rw [hstatus]
    decide
  · rw [hstatus]
    decide

theorem resultFromIdempotency_of_carries {record : IdempotencyRecord DateTime} {outcome : HandlerOutcome}
    (h : Carries record outcome.receipt) (e : Envelope) (agent : String) (now : DateTime) (staleAfterSec : ℤ) :
    resultFromIdempotency e agent record now staleAfterSec = receiptResponse e agent outcome.receipt true := by
  rw [resultFromIdempotency, receiptResponse, h.status, h.error, h.resultInline, h.resultRef, h.taskId]
  rcases outcome.status_receipt with ⟨hstatus, herror⟩ | ⟨hstatus, item, rest, herror⟩
  · rw [if_pos hstatus, herror]
  · have hne : statusFailed ≠ statusSuccess := by decide
    rw [hstatus, if_neg hne, if_pos (.inl rfl), herror]

omit [DecidableEq Thread] in
theorem CallsOk.recorded {σ : System Thread CallState Place} (h : CallsOk σ) {t : Thread} {e : Envelope} {agent : String}
    {reservation : IdempotencyRecord DateTime} {receipt : Receipt}
    (hplace : σ.threads t = .finishing e agent reservation receipt) (now : DateTime) :
    ∃ record, Carries record receipt ∧ Recorded (finishIdempotency σ.shared.rows reservation receipt now).2
      (idempotencyScope e agent) e.idempotencyKey record := by
  have hown : PlaceOk σ.shared (.finishing e agent reservation receipt) := hplace ▸ h.annotated.threads t
  obtain ⟨⟨-, hslot, row, hrow, hpending, htask⟩, outcome, rfl⟩ := hown
  refine ⟨outcome.receipt.write now row, ⟨rfl, rfl, rfl, rfl, htask⟩, ?_, outcome.finished_receipt⟩
  obtain ⟨hscope, hkey⟩ := Prod.mk.inj hslot
  rw [getIdempotency_finishIdempotency, ← hscope, ← hkey, hrow, Option.map_some, if_pos hpending]

theorem rows_receipt {σ : System Thread CallState Place} {t : Thread} {e : Envelope} {agent : String}
    {reservation : IdempotencyRecord DateTime} {receipt : Receipt} {now : DateTime} {fate : WriteFate}
    (hplace : σ.threads t = .finishing e agent reservation receipt) (hfate : fate ≠ .lost) :
    (calls.step σ (.advance t (.receipt now fate))).shared.rows =
      (finishIdempotency σ.shared.rows reservation receipt now).2 := by
  have hstep : (calls.step σ (.advance t (.receipt now fate))).shared =
      (next σ.shared (σ.threads t) (.receipt now fate)).1 := rfl
  rw [hstep, hplace]
  cases fate with
  | written => rfl
  | lost => exact absurd rfl hfate
  | unconfirmed => rfl

/-- Every call on the slot returns the receipt, and changes nothing. -/
def Replays (s : CallState) (scope key : String) (receipt : Receipt) : Prop :=
  ∀ e agent now staleAfterSec, e.type = "call" → idempotencyScope e agent = scope → e.idempotencyKey = key →
    call s e (.ok agent) now staleAfterSec = (s, .idle (some (.ok (receiptResponse e agent receipt true))))

theorem Recorded.replays {s : CallState} {scope key : String} {record : IdempotencyRecord DateTime}
    (h : Recorded s.rows scope key record) {outcome : HandlerOutcome} (hcarries : Carries record outcome.receipt) :
    Replays s scope key outcome.receipt := by
  rintro e agent now staleAfterSec htype rfl rfl
  rw [call_of_some htype h.row, resultFromIdempotency_of_carries hcarries]

/-- In every run a handler is invoked at most once for a slot, and once a call has written its receipt, it never
changes and every later call returns it. -/
theorem call_at_most_once (rows : IdempotencyTable DateTime) (actions later : List (Action Thread Op Choice)) :
    (∀ slot, (run calls.step (initial Thread rows) actions).shared.invoked.count slot ≤ 1) ∧
    (∀ e agent key record, e.type = "call" →
      Recorded (run calls.step (initial Thread rows) actions).shared.rows (idempotencyScope e agent) key record →
      Recorded (run calls.step (initial Thread rows) (actions ++ later)).shared.rows (idempotencyScope e agent) key record) ∧
    ∀ t e agent reservation receipt now fate,
      (run calls.step (initial Thread rows) actions).threads t = .finishing e agent reservation receipt → fate ≠ .lost →
      Replays (run calls.step (initial Thread rows) (actions ++ .advance t (.receipt now fate) :: later)).shared
        (idempotencyScope e agent) e.idempotencyKey receipt := by
  have hok := callsOk_run rows actions
  refine ⟨hok.annotated.shared.once, ?_, ?_⟩
  · intro e agent key record htype hrecorded
    rw [run_append]
    exact hrecorded.run htype later
  · intro t e agent reservation receipt now fate hplace hfate
    have hown : PlaceOk (run calls.step (initial Thread rows) actions).shared (.finishing e agent reservation receipt) :=
      hplace ▸ hok.annotated.threads t
    obtain ⟨howned, outcome, rfl⟩ := hown
    obtain ⟨record, hcarries, hrecorded⟩ := hok.recorded hplace now
    rw [run_append, run_cons]
    refine Recorded.replays (Recorded.run howned.type ?_ later) hcarries
    rw [rows_receipt hplace hfate]
    exact hrecorded

end OpenMinion.A2ACalls
