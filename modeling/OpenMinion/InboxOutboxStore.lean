import Mathlib.Algebra.Group.Int.Defs
import Mathlib.Data.Int.Order.Basic
import Mathlib.Data.String.Basic
import OpenMinion.ClaimQueues
import OpenMinion.IsoTimestamps
import OpenMinion.JsonValues
import OpenMinion.TransitionRuns

/-!
# The inbox and the outbox

The tables `cp_inbox` and `cp_outbox`, whose statuses are those of a queue under two sets of names. Every call is one
transaction and carries its clock readings, the identifier that it draws, and the order of ties.
-/
namespace OpenMinion.InboxOutboxStore
open ClaimQueues IsoTimestamps JsonValues KeyedTables TransitionRuns

structure InboxMessage where
  channel : String
  chatId : String
  channelMessageId : String
  userId : String
  payload : Dict := []
  threadId : Option String := none
  deriving DecidableEq

structure OutboxMessage where
  channel : String
  chatId : String
  payload : Dict := []
  threadId : Option String := none
  replyTo : Option String := none
  deriving DecidableEq

abbrev InboxRow := QueueRow String InboxMessage String
abbrev OutboxRow := QueueRow String OutboxMessage String

/-- The columns of the unique index of `cp_inbox`. -/
def InboxMessage.dedupeKey (m : InboxMessage) : String × String × String := (m.channel, m.chatId, m.channelMessageId)

structure MessageTables where
  inbox : List InboxRow := []
  outbox : List OutboxRow := []

inductive StoreError where
  | integrityError
  | overflowError
  deriving DecidableEq

inductive RetryDecision where
  | dead
  | retry
  deriving DecidableEq

/-- `given or uuid.uuid4().hex`. -/
def idOr (given : Option String) (freshId : String) : String :=
  match given with
  | none => freshId
  | some id => if id = "" then freshId else id

def isoAfter (now : DateTime) (seconds : ℤ) : Option String := (now.addSeconds (max 0 seconds)).map toIsoUtc

def isoAgo (now : DateTime) (seconds : ℤ) : Option String := (now.addSeconds (-max 0 seconds)).map toIsoUtc

/-- `error[:2000]`. -/
def clip (error : String) : String := String.ofList (error.toList.take 2000)

/-- `min(max_backoff_s, 2 ** max(0, attempts - 1))`. -/
def backoff (maxBackoff : ℤ) (attempts : ℕ) : ℤ := min maxBackoff (2 ^ (attempts - 1))

section Rows

variable {Message : Type} (rows : List (QueueRow String Message String))

/-- `claim_inbox` and `claim_outbox`, on the rows of their table. -/
def claimRow (lockOwner : String) (now agoFrom : DateTime) (tie : ℕ) (reclaimTtl : ℤ) :
    Except StoreError (Option (QueueRow String Message String)) × List (QueueRow String Message String) :=
  match isoAgo agoFrom reclaimTtl with
  | none => (.error .overflowError, rows)
  | some before =>
    let (row, rows') := claim lockOwner (toIsoUtc now) before tie rows
    (.ok row, rows')

/-- `mark_inbox_retry` and `mark_outbox_retry`, on the rows of their table. -/
def markRetry (id error : String) (now : DateTime) (maxAttempts maxBackoff : ℤ) :
    Except StoreError RetryDecision × List (QueueRow String Message String) :=
  let attempts := attemptsOf id rows
  if maxAttempts ≤ attempts then (.ok .dead, bury id (clip error) rows)
  else match isoAfter now (backoff maxBackoff attempts) with
    | none => (.error .overflowError, rows)
    | some nextAttemptAt => (.ok .retry, postpone id (clip error) nextAttemptAt rows)

end Rows

section Calls

variable (s : MessageTables)

/-- `enqueue_inbox`. The unique index of the message is tested first, and the primary key only for a row to insert. -/
def enqueueInbox (message : InboxMessage) (inboundId : Option String) (freshId : String) (now : DateTime) :
    Except StoreError (String × Bool) × MessageTables :=
  let inboxId := idOr inboundId freshId
  match lookup (fun r => r.message.dedupeKey) message.dedupeKey s.inbox with
  | some r => (.ok (r.id, false), s)
  | none =>
    match lookup QueueRow.id inboxId s.inbox with
    | some _ => (.error .integrityError, s)
    | none => (.ok (inboxId, true), { s with inbox := s.inbox ++ [arrival inboxId message (toIsoUtc now)] })

def claimInbox (lockOwner : String) (now agoFrom : DateTime) (tie : ℕ) (reclaimTtl : ℤ := 120) :
    Except StoreError (Option InboxRow) × MessageTables :=
  let (result, rows) := claimRow s.inbox lockOwner now agoFrom tie reclaimTtl
  (result, { s with inbox := rows })

def ackInbox (inboxId : String) : MessageTables := { s with inbox := complete inboxId s.inbox }

def failInbox (inboxId error : String) : MessageTables := { s with inbox := fail inboxId (clip error) s.inbox }

def markInboxRetry (inboxId error : String) (now : DateTime) (maxAttempts : ℤ := 8) (maxBackoff : ℤ := 300) :
    Except StoreError RetryDecision × MessageTables :=
  let (result, rows) := markRetry s.inbox inboxId error now maxAttempts maxBackoff
  (result, { s with inbox := rows })

def enqueueOutbox (message : OutboxMessage) (outboxId : Option String) (freshId : String) (now : DateTime) :
    String × MessageTables :=
  let oid := idOr outboxId freshId
  (oid, { s with outbox := upsertRow QueueRow.id (arrival oid message (toIsoUtc now)) s.outbox })

def claimOutbox (lockOwner : String) (now agoFrom : DateTime) (tie : ℕ) (reclaimTtl : ℤ := 120) :
    Except StoreError (Option OutboxRow) × MessageTables :=
  let (result, rows) := claimRow s.outbox lockOwner now agoFrom tie reclaimTtl
  (result, { s with outbox := rows })

def markOutboxSent (outboxId : String) : MessageTables := { s with outbox := complete outboxId s.outbox }

def markOutboxRetry (outboxId error : String) (now : DateTime) (maxAttempts : ℤ := 8) (maxBackoff : ℤ := 300) :
    Except StoreError RetryDecision × MessageTables :=
  let (result, rows) := markRetry s.outbox outboxId error now maxAttempts maxBackoff
  (result, { s with outbox := rows })

end Calls

inductive QueueCall where
  | enqueueInbox (message : InboxMessage) (inboundId : Option String) (freshId : String) (now : DateTime)
  | claimInbox (lockOwner : String) (now agoFrom : DateTime) (tie : ℕ) (reclaimTtl : ℤ)
  | ackInbox (inboxId : String)
  | failInbox (inboxId error : String)
  | markInboxRetry (inboxId error : String) (now : DateTime) (maxAttempts maxBackoff : ℤ)
  | enqueueOutbox (message : OutboxMessage) (outboxId : Option String) (freshId : String) (now : DateTime)
  | claimOutbox (lockOwner : String) (now agoFrom : DateTime) (tie : ℕ) (reclaimTtl : ℤ)
  | markOutboxSent (outboxId : String)
  | markOutboxRetry (outboxId error : String) (now : DateTime) (maxAttempts maxBackoff : ℤ)

inductive QueueOutcome where
  | inboxId (id : String) (inserted : Bool)
  | outboxId (id : String)
  | inboxRow (row : Option InboxRow)
  | outboxRow (row : Option OutboxRow)
  | decision (decision : RetryDecision)
  | nothing
  | raised (error : StoreError)
  deriving DecidableEq

namespace QueueOutcome

def ofResult {Result : Type} (f : Result → QueueOutcome) : Except StoreError Result → QueueOutcome
  | .ok result => f result
  | .error error => .raised error

def claimedInbox : QueueOutcome → Option InboxRow
  | .inboxRow row => row
  | _ => none

def claimedOutbox : QueueOutcome → Option OutboxRow
  | .outboxRow row => row
  | _ => none

section OfResult

variable {Result : Type} {f : Result → QueueOutcome}

theorem claimedInbox_ofResult (hf : ∀ result, (f result).claimedInbox = none) (result : Except StoreError Result) :
    (ofResult f result).claimedInbox = none := by
  cases result with
  | ok result => exact hf result
  | error error => rfl

theorem claimedOutbox_ofResult (hf : ∀ result, (f result).claimedOutbox = none) (result : Except StoreError Result) :
    (ofResult f result).claimedOutbox = none := by
  cases result with
  | ok result => exact hf result
  | error error => rfl

end OfResult

end QueueOutcome

def perform (s : MessageTables) : QueueCall → QueueOutcome × MessageTables
  | .enqueueInbox message inboundId freshId now =>
    let (result, s') := enqueueInbox s message inboundId freshId now
    (QueueOutcome.ofResult (fun (id, inserted) => .inboxId id inserted) result, s')
  | .claimInbox lockOwner now agoFrom tie reclaimTtl =>
    let (result, s') := claimInbox s lockOwner now agoFrom tie reclaimTtl
    (QueueOutcome.ofResult .inboxRow result, s')
  | .ackInbox inboxId => (.nothing, ackInbox s inboxId)
  | .failInbox inboxId error => (.nothing, failInbox s inboxId error)
  | .markInboxRetry inboxId error now maxAttempts maxBackoff =>
    let (result, s') := markInboxRetry s inboxId error now maxAttempts maxBackoff
    (QueueOutcome.ofResult .decision result, s')
  | .enqueueOutbox message outboxId freshId now =>
    let (oid, s') := enqueueOutbox s message outboxId freshId now
    (.outboxId oid, s')
  | .claimOutbox lockOwner now agoFrom tie reclaimTtl =>
    let (result, s') := claimOutbox s lockOwner now agoFrom tie reclaimTtl
    (QueueOutcome.ofResult .outboxRow result, s')
  | .markOutboxSent outboxId => (.nothing, markOutboxSent s outboxId)
  | .markOutboxRetry outboxId error now maxAttempts maxBackoff =>
    let (result, s') := markOutboxRetry s outboxId error now maxAttempts maxBackoff
    (QueueOutcome.ofResult .decision result, s')

def step (s : MessageTables) (call : QueueCall) : MessageTables := (perform s call).2

section Operations

variable {Message : Type} (rows : List (QueueRow String Message String))

def claimOp (lockOwner : String) (now agoFrom : DateTime) (tie : ℕ) (reclaimTtl : ℤ) : QueueOp String Message String :=
  match isoAgo agoFrom reclaimTtl with
  | none => .idle
  | some before => .claim lockOwner (toIsoUtc now) before tie

def retryOp (id error : String) (now : DateTime) (maxAttempts maxBackoff : ℤ) : QueueOp String Message String :=
  if maxAttempts ≤ attemptsOf id rows then .bury id (clip error)
  else match isoAfter now (backoff maxBackoff (attemptsOf id rows)) with
    | none => .idle
    | some nextAttemptAt => .postpone id (clip error) nextAttemptAt

/-- Claims, for the constructor `f` of their outcome and the row that it has. -/
theorem claimRow_apply {f : Option (QueueRow String Message String) → QueueOutcome}
    {claimed : QueueOutcome → Option (QueueRow String Message String)} (hf : ∀ row, claimed (f row) = row)
    (hraised : ∀ error, claimed (.raised error) = none) (lockOwner : String) (now agoFrom : DateTime) (tie : ℕ)
    (reclaimTtl : ℤ) :
    (claimed (.ofResult f (claimRow rows lockOwner now agoFrom tie reclaimTtl).1),
      (claimRow rows lockOwner now agoFrom tie reclaimTtl).2) =
    (claimOp lockOwner now agoFrom tie reclaimTtl).apply rows := by
  rw [claimRow, claimOp]
  cases isoAgo agoFrom reclaimTtl with
  | none => exact Prod.ext (hraised _) rfl
  | some before => exact Prod.ext (hf _) rfl

theorem markRetry_apply (id error : String) (now : DateTime) (maxAttempts maxBackoff : ℤ) :
    (none, (markRetry rows id error now maxAttempts maxBackoff).2) =
      (retryOp rows id error now maxAttempts maxBackoff).apply rows := by
  rw [markRetry, retryOp]
  split
  · rfl
  · cases isoAfter now (backoff maxBackoff (attemptsOf id rows)) with
    | none => rfl
    | some nextAttemptAt => rfl

end Operations

def inboxOp (s : MessageTables) : QueueCall → QueueOp String InboxMessage String
  | .enqueueInbox message inboundId freshId now =>
    if (lookup (fun r => r.message.dedupeKey) message.dedupeKey s.inbox).isSome then .idle
    else if (lookup QueueRow.id (idOr inboundId freshId) s.inbox).isSome then .idle
    else .enqueue (idOr inboundId freshId) message (toIsoUtc now)
  | .claimInbox lockOwner now agoFrom tie reclaimTtl => claimOp lockOwner now agoFrom tie reclaimTtl
  | .ackInbox inboxId => .complete inboxId
  | .failInbox inboxId error => .fail inboxId (clip error)
  | .markInboxRetry inboxId error now maxAttempts maxBackoff => retryOp s.inbox inboxId error now maxAttempts maxBackoff
  | _ => .idle

def outboxOp (s : MessageTables) : QueueCall → QueueOp String OutboxMessage String
  | .enqueueOutbox message outboxId freshId now => .enqueue (idOr outboxId freshId) message (toIsoUtc now)
  | .claimOutbox lockOwner now agoFrom tie reclaimTtl => claimOp lockOwner now agoFrom tie reclaimTtl
  | .markOutboxSent outboxId => .complete outboxId
  | .markOutboxRetry outboxId error now maxAttempts maxBackoff =>
    retryOp s.outbox outboxId error now maxAttempts maxBackoff
  | _ => .idle

theorem perform_inbox (s : MessageTables) (call : QueueCall) :
    ((perform s call).1.claimedInbox, (step s call).inbox) = (inboxOp s call).apply s.inbox := by
  cases call with
  | enqueueInbox message inboundId freshId now =>
    rw [step, perform, enqueueInbox, inboxOp]
    dsimp only
    cases lookup (fun r => r.message.dedupeKey) message.dedupeKey s.inbox with
    | some r => rfl
    | none =>
      cases hid : lookup QueueRow.id (idOr inboundId freshId) s.inbox with
      | some r => rfl
      | none =>
        have hinsert : upsertRow QueueRow.id (arrival (idOr inboundId freshId) message (toIsoUtc now)) s.inbox =
            s.inbox ++ [arrival (idOr inboundId freshId) message (toIsoUtc now)] := upsertRow_of_absent hid
        exact Prod.ext rfl hinsert.symm
  | claimInbox lockOwner now agoFrom tie reclaimTtl =>
    exact claimRow_apply s.inbox (fun _ => rfl) (fun _ => rfl) lockOwner now agoFrom tie reclaimTtl
  | ackInbox inboxId => rfl
  | failInbox inboxId error => rfl
  | markInboxRetry inboxId error now maxAttempts maxBackoff =>
    have hrows := markRetry_apply s.inbox inboxId error now maxAttempts maxBackoff
    rw [inboxOp, ← hrows]
    exact Prod.ext (QueueOutcome.claimedInbox_ofResult (fun _ => rfl) _) rfl
  | enqueueOutbox message outboxId freshId now => rfl
  | claimOutbox lockOwner now agoFrom tie reclaimTtl =>
    exact Prod.ext (QueueOutcome.claimedInbox_ofResult (fun _ => rfl) _) rfl
  | markOutboxSent outboxId => rfl
  | markOutboxRetry outboxId error now maxAttempts maxBackoff =>
    exact Prod.ext (QueueOutcome.claimedInbox_ofResult (fun _ => rfl) _) rfl

theorem perform_outbox (s : MessageTables) (call : QueueCall) :
    ((perform s call).1.claimedOutbox, (step s call).outbox) = (outboxOp s call).apply s.outbox := by
  cases call with
  | enqueueInbox message inboundId freshId now =>
    refine Prod.ext (QueueOutcome.claimedOutbox_ofResult (fun _ => rfl) _) ?_
    rw [step, perform, enqueueInbox]
    dsimp only
    cases lookup (fun r => r.message.dedupeKey) message.dedupeKey s.inbox with
    | some r => rfl
    | none =>
      cases lookup QueueRow.id (idOr inboundId freshId) s.inbox with
      | some r => rfl
      | none => rfl
  | claimInbox lockOwner now agoFrom tie reclaimTtl =>
    exact Prod.ext (QueueOutcome.claimedOutbox_ofResult (fun _ => rfl) _) rfl
  | ackInbox inboxId => rfl
  | failInbox inboxId error => rfl
  | markInboxRetry inboxId error now maxAttempts maxBackoff =>
    exact Prod.ext (QueueOutcome.claimedOutbox_ofResult (fun _ => rfl) _) rfl
  | enqueueOutbox message outboxId freshId now => rfl
  | claimOutbox lockOwner now agoFrom tie reclaimTtl =>
    exact claimRow_apply s.outbox (fun _ => rfl) (fun _ => rfl) lockOwner now agoFrom tie reclaimTtl
  | markOutboxSent outboxId => rfl
  | markOutboxRetry outboxId error now maxAttempts maxBackoff =>
    have hrows := markRetry_apply s.outbox outboxId error now maxAttempts maxBackoff
    rw [outboxOp, ← hrows]
    exact Prod.ext (QueueOutcome.claimedOutbox_ofResult (fun _ => rfl) _) rfl

end OpenMinion.InboxOutboxStore
