import OpenMinion.InboxOutboxDelivery
import OpenMinion.InterleavedThreads

/-!
# Replies to inbox messages

An inbox worker claims a message, puts a reply into the outbox and acknowledges the message; when
something raises it asks for another attempt. It may stop between two calls of the store.
-/
namespace OpenMinion.InboxReplies
open ClaimQueues InboxOutboxDelivery InboxOutboxStore InterleavedThreads IsoTimestamps JsonValues KeyedTables TransitionRuns

structure InboxWorker where
  lockOwner : String
  maxAttempts : ℤ := 8
  maxBackoff : ℤ := 300

/-- Where a worker is in `run_once`. -/
inductive Place where
  | idle
  | working (row : InboxRow)
  | replied (row : InboxRow)

inductive Move where
  | claim (now agoFrom : DateTime) (tie : ℕ)
  | reply (payload : Dict) (freshId : String) (now : DateTime)
  | ack
  | retry (error : String) (now : DateTime)
  | crash

/-- `payload.get("reply_to") or row["channel_message_id"]`, as a text. -/
def replyTo (str : Json → String) (m : InboxMessage) : String :=
  if (m.payload.get "reply_to").truthy then str (m.payload.get "reply_to") else m.channelMessageId

/-- The message that `_queue_text_reply` and `_dispatch_to_outbox` enqueue. -/
def reply (str : Json → String) (m : InboxMessage) (payload : Dict) : OutboxMessage where
  channel := m.channel
  chatId := m.chatId
  payload := payload
  threadId := m.threadId.filter (· ≠ "")
  replyTo := some (replyTo str m)

/-- The next call of a worker, and where it is then. -/
def next (str : Json → String) (w : InboxWorker) (s : MessageTables) : Place → Move → MessageTables × Place
  | .idle, .claim now agoFrom tie =>
    ((claimInbox s w.lockOwner now agoFrom tie).2,
      match (claimInbox s w.lockOwner now agoFrom tie).1 with
      | .ok (some row) => .working row
      | _ => .idle)
  | .working row, .reply payload freshId now =>
    ((enqueueOutbox s (reply str row.message payload) none freshId now).2, .replied row)
  | .replied row, .ack => (ackInbox s row.id, .idle)
  | .working row, .retry error now | .replied row, .retry error now =>
    ((markInboxRetry s row.id error now w.maxAttempts w.maxBackoff).2, .idle)
  | _, .crash => (s, .idle)
  | place, _ => (s, place)

inductive Action (Worker : Type) where
  | move (t : Worker) (m : Move)
  | call (c : QueueCall)

variable {Worker : Type} [DecidableEq Worker]

def step (str : Json → String) (workers : Worker → InboxWorker) (σ : System Worker MessageTables Place) :
    Action Worker → System Worker MessageTables Place
  | .move t m => σ.become t (next str (workers t) σ.shared (σ.threads t) m)
  | .call c => { σ with shared := InboxOutboxStore.step σ.shared c }

def start : System Worker MessageTables Place := ⟨{}, fun _ => .idle⟩

/-- The call does not enqueue a message over one that the outbox has. -/
def EnqueuesNew (s : MessageTables) : QueueCall → Prop
  | .enqueueOutbox _ outboxId freshId _ => lookup QueueRow.id (idOr outboxId freshId) s.outbox = none
  | _ => True

/-- Only workers acknowledge messages, and a drawn identifier is not in the outbox yet. -/
def Allowed (σ : System Worker MessageTables Place) : Action Worker → Prop
  | .move _ (.reply _ freshId _) => lookup QueueRow.id (idOr none freshId) σ.shared.outbox = none
  | .move _ _ => True
  | .call (.ackInbox _) => False
  | .call c => EnqueuesNew σ.shared c

theorem keepsInbox_step {s : MessageTables} (hu : UniqueIds s) (c : QueueCall) :
    KeepsMessages s.inbox (InboxOutboxStore.step s c).inbox := by
  rw [step_inbox]
  refine keepsMessages_apply hu.inbox ?_
  intro id message now hop
  cases c with
  | enqueueInbox m inboundId freshId at' =>
    rw [inboxOp] at hop
    split at hop
    · cases hop
    · split at hop
      · cases hop
      · next hnone =>
        cases hop
        simpa using hnone
  | claimInbox lockOwner at' agoFrom tie ttl =>
    rw [inboxOp, claimOp] at hop
    split at hop <;> cases hop
  | markInboxRetry inboxId error at' maxAttempts maxBackoff =>
    rw [inboxOp, retryOp] at hop
    split at hop
    · cases hop
    · split at hop <;> cases hop
  | _ => cases hop

theorem keepsOutbox_step {s : MessageTables} (hu : UniqueIds s) {c : QueueCall} (hnew : EnqueuesNew s c) :
    KeepsMessages s.outbox (InboxOutboxStore.step s c).outbox := by
  rw [step_outbox]
  refine keepsMessages_apply hu.outbox ?_
  intro id message now hop
  cases c with
  | enqueueOutbox m outboxId freshId at' =>
    rw [outboxOp] at hop
    cases hop
    exact hnew
  | claimOutbox lockOwner at' agoFrom tie ttl =>
    rw [outboxOp, claimOp] at hop
    split at hop <;> cases hop
  | markOutboxRetry outboxId error at' maxAttempts maxBackoff =>
    rw [outboxOp, retryOp] at hop
    split at hop
    · cases hop
    · split at hop <;> cases hop
  | _ => cases hop

theorem complete_of_inboxOp {s : MessageTables} {c : QueueCall} {id : String} (h : inboxOp s c = .complete id) :
    c = .ackInbox id := by
  cases c with
  | ackInbox inboxId =>
    rw [inboxOp] at h
    cases h
    rfl
  | enqueueInbox m inboundId freshId now =>
    rw [inboxOp] at h
    split at h
    · cases h
    · split at h <;> cases h
  | claimInbox lockOwner now agoFrom tie ttl =>
    rw [inboxOp, claimOp] at h
    split at h <;> cases h
  | markInboxRetry inboxId error now maxAttempts maxBackoff =>
    rw [inboxOp, retryOp] at h
    split at h
    · cases h
    · split at h <;> cases h
  | _ => cases h

variable {str : Json → String}

/-- The outbox has, or had and sent, a reply to the message. -/
def Answered (str : Json → String) (s : MessageTables) (m : InboxMessage) : Prop :=
  ∃ o ∈ s.outbox, ∃ payload, o.message = reply str m payload

def InboxHas (s : MessageTables) (row : InboxRow) : Prop := ∃ r ∈ s.inbox, r.id = row.id ∧ r.message = row.message

structure TablesOk (str : Json → String) (s : MessageTables) : Prop where
  unique : UniqueIds s
  answered : ∀ r ∈ s.inbox, r.status = .completed → Answered str s r.message

def PlaceOk (str : Json → String) (s : MessageTables) : Place → Prop
  | .idle => True
  | .working row => InboxHas s row
  | .replied row => InboxHas s row ∧ Answered str s row.message

section Calls

variable {s : MessageTables} {c : QueueCall} (hu : UniqueIds s) (hnew : EnqueuesNew s c)
include hu hnew

theorem Answered.call {m : InboxMessage} (h : Answered str s m) : Answered str (InboxOutboxStore.step s c) m := by
  obtain ⟨o, ho, payload, hmessage⟩ := h
  obtain ⟨o', ho', -, hsame⟩ := keepsOutbox_step hu hnew o ho
  exact ⟨o', ho', payload, hsame.trans hmessage⟩

theorem PlaceOk.call {place : Place} (h : PlaceOk str s place) : PlaceOk str (InboxOutboxStore.step s c) place := by
  have hhas : ∀ row, InboxHas s row → InboxHas (InboxOutboxStore.step s c) row := by
    rintro row ⟨r, hr, hid, hmessage⟩
    obtain ⟨r', hr', hid', hmessage'⟩ := keepsInbox_step hu c r hr
    exact ⟨r', hr', hid'.trans hid, hmessage'.trans hmessage⟩
  cases place with
  | idle => trivial
  | working row => exact hhas row h
  | replied row => exact ⟨hhas row h.1, h.2.call hu hnew⟩

end Calls

/-- A call keeps what is answered, if it acknowledges at most a message with a reply. -/
theorem TablesOk.call {s : MessageTables} (h : TablesOk str s) {c : QueueCall} (hnew : EnqueuesNew s c)
    (hack : ∀ id, c = .ackInbox id → ∀ r ∈ s.inbox, r.id = id → Answered str s r.message) :
    TablesOk str (InboxOutboxStore.step s c) := by
  refine ⟨uniqueIds_step h.unique c, ?_⟩
  intro r hr hcompleted
  rw [step_inbox] at hr
  refine Answered.call h.unique hnew ?_
  rcases completed_apply h.unique.inbox hr hcompleted with hold | ⟨hop, r₀, hr₀, hid, hmessage⟩
  · exact h.answered r hold hcompleted
  · rw [← hmessage]
    exact hack r.id (complete_of_inboxOp hop) r₀ hr₀ hid

/-- What a call of a worker may be: it overwrites no reply and acknowledges only what has one. -/
def Careful (str : Json → String) (s : MessageTables) (c : QueueCall) : Prop :=
  EnqueuesNew s c ∧ ∀ id, c = .ackInbox id → ∀ r ∈ s.inbox, r.id = id → Answered str s r.message

theorem placeOk_claimed {s : MessageTables} (hu : UniqueIds s) {lockOwner : String} {now agoFrom : DateTime} {tie : ℕ}
    {row : InboxRow} (hrow : (claimInbox s lockOwner now agoFrom tie).1 = .ok (some row)) :
    InboxHas (claimInbox s lockOwner now agoFrom tie).2 row := by
  have hclaimed : (perform s (.claimInbox lockOwner now agoFrom tie 120)).1.claimedInbox = some row := by
    rw [perform]
    dsimp only
    rw [hrow]
    rfl
  have happly := (congrArg Prod.fst (perform_inbox s (.claimInbox lockOwner now agoFrom tie 120))).symm.trans hclaimed
  have hmem := claimed_mem hu.inbox happly
  rwa [← step_inbox] at hmem

theorem careful_ack {s : MessageTables} (hu : UniqueIds s) {row : InboxRow} (hplace : PlaceOk str s (.replied row)) :
    Careful str s (.ackInbox row.id) := by
  refine ⟨trivial, ?_⟩
  rintro id heq r hr hid
  obtain ⟨⟨r₀, hr₀, hid₀, hmessage⟩, hanswered⟩ := hplace
  obtain rfl : row.id = id := QueueCall.ackInbox.inj heq
  rw [hu.inbox.eq_of_key_eq hr hr₀ (hid.trans hid₀.symm), hmessage]
  exact hanswered

/-- A worker does nothing to the store or makes a careful call, and where it is then is true. -/
theorem next_cases (w : InboxWorker) {s : MessageTables} (hu : UniqueIds s) {place : Place} (hplace : PlaceOk str s place)
    {m : Move} (hnew : ∀ payload freshId now, m = .reply payload freshId now →
      lookup QueueRow.id (idOr none freshId) s.outbox = none) :
    ((next str w s place m).1 = s ∨ ∃ c, Careful str s c ∧ (next str w s place m).1 = InboxOutboxStore.step s c) ∧
    PlaceOk str (next str w s place m).1 (next str w s place m).2 := by
  cases place with
  | idle =>
    cases m with
    | claim now agoFrom tie =>
      refine ⟨.inr ⟨.claimInbox w.lockOwner now agoFrom tie 120, ⟨trivial, fun _ heq => nomatch heq⟩, rfl⟩, ?_⟩
      rw [next]
      split
      · next row hrow => exact placeOk_claimed hu hrow
      · trivial
    | _ => exact ⟨.inl rfl, trivial⟩
  | working row =>
    cases m with
    | reply payload freshId now =>
      have hfresh := hnew payload freshId now rfl
      refine ⟨.inr ⟨.enqueueOutbox (reply str row.message payload) none freshId now, ⟨hfresh, fun _ heq => nomatch heq⟩, rfl⟩,
        hplace, ?_⟩
      have hself : lookup QueueRow.id (idOr none freshId) (upsertRow QueueRow.id
          (arrival (idOr none freshId) (reply str row.message payload) (toIsoUtc now)) s.outbox) =
          some (arrival (idOr none freshId) (reply str row.message payload) (toIsoUtc now)) :=
        lookup_upsertRow_self (arrival (idOr none freshId) (reply str row.message payload) (toIsoUtc now)) s.outbox
      exact ⟨_, (lookup_some hself).1, payload, rfl⟩
    | retry error now =>
      exact ⟨.inr ⟨.markInboxRetry row.id error now w.maxAttempts w.maxBackoff, ⟨trivial, fun _ heq => nomatch heq⟩, rfl⟩, trivial⟩
    | crash => exact ⟨.inl rfl, trivial⟩
    | claim | ack => exact ⟨.inl rfl, hplace⟩
  | replied row =>
    cases m with
    | ack => exact ⟨.inr ⟨.ackInbox row.id, careful_ack hu hplace, rfl⟩, trivial⟩
    | retry error now =>
      exact ⟨.inr ⟨.markInboxRetry row.id error now w.maxAttempts w.maxBackoff, ⟨trivial, fun _ heq => nomatch heq⟩, rfl⟩, trivial⟩
    | crash => exact ⟨.inl rfl, trivial⟩
    | claim | reply => exact ⟨.inl rfl, hplace⟩

theorem annotated_step {workers : Worker → InboxWorker} {σ : System Worker MessageTables Place} {a : Action Worker}
    (h : Annotated (TablesOk str) (PlaceOk str) σ) (hok : Allowed σ a) :
    Annotated (TablesOk str) (PlaceOk str) (step str workers σ a) := by
  have hcall : ∀ c, Careful str σ.shared c → TablesOk str (InboxOutboxStore.step σ.shared c) ∧
      ∀ t, PlaceOk str (InboxOutboxStore.step σ.shared c) (σ.threads t) :=
    fun c hc => ⟨h.shared.call hc.1 hc.2, fun t => (h.threads t).call h.shared.unique hc.1⟩
  cases a with
  | move t m =>
    obtain ⟨htables, hown⟩ := next_cases (workers t) h.shared.unique (h.threads t) (m := m) (by
      rintro payload freshId now rfl
      exact hok)
    have hkept : TablesOk str (next str (workers t) σ.shared (σ.threads t) m).1 ∧
        ∀ t', PlaceOk str (next str (workers t) σ.shared (σ.threads t) m).1 (σ.threads t') := by
      obtain hsame | ⟨c, hc, hstep⟩ := htables
      · rw [hsame]
        exact ⟨h.shared, h.threads⟩
      · rw [hstep]
        exact hcall c hc
    exact Keeps.annotated ⟨hkept.1, hown, fun t' _ => hkept.2 t'⟩
  | call c =>
    have hc : Careful str σ.shared c := by
      cases c with
      | ackInbox inboxId => cases hok
      | _ => exact ⟨hok, fun _ heq => nomatch heq⟩
    obtain ⟨htables, hplaces⟩ := hcall c hc
    exact ⟨htables, hplaces⟩

/-- Whatever the workers and other clients do, and wherever a worker stops, a message that is done
has a reply in the outbox. -/
theorem done_answered (str : Json → String) (workers : Worker → InboxWorker) {actions : List (Action Worker)}
    (h : Guarded (step str workers) Allowed start actions) {r : InboxRow}
    (hr : r ∈ (run (step str workers) start actions).shared.inbox) (hdone : r.status = .completed) :
    ∃ o ∈ (run (step str workers) start actions).shared.outbox, ∃ payload, o.message = reply str r.message payload := by
  have hstart : Annotated (TablesOk str) (PlaceOk str) (start : System Worker MessageTables Place) :=
    ⟨⟨⟨.nil, .nil⟩, fun _ hmem => nomatch hmem⟩, fun _ => trivial⟩
  exact (h.invariant (fun _ _ hσ hok => annotated_step hσ hok) hstart).shared.answered r hr hdone

/-- The first worker stops after its reply, and a second one replies again. -/
def stoppedAfterReply : List (Action Bool) :=
  [.call (.enqueueInbox question (some "in") "" (minute 0)), .move true (.claim (minute 0) (minute 0) 0),
    .move true (.reply [] "first" (minute 0)), .move true .crash, .move false (.claim (minute 3) (minute 3) 0),
    .move false (.reply [] "second" (minute 3)), .move false .ack]

theorem done_answered_stoppedAfterReply :
    let σ := run (step (fun _ => "") fun t => ⟨toString t, 8, 300⟩) start stoppedAfterReply
    σ.shared.inbox.map QueueRow.status = [.completed] ∧ σ.shared.outbox.map QueueRow.id = ["first", "second"] ∧
      ∀ r ∈ σ.shared.inbox, r.status = .completed → ∃ o ∈ σ.shared.outbox, ∃ payload,
        o.message = reply (fun _ => "") r.message payload := by
  intro σ
  refine ⟨by decide +kernel, by decide +kernel, fun r hr hdone => ?_⟩
  have hallowed : Guarded (step (fun _ => "") fun t => ⟨toString t, 8, 300⟩) Allowed start stoppedAfterReply := ?_
  · exact done_answered (fun _ => "") (fun t => ⟨toString t, 8, 300⟩) hallowed hr hdone
  refine .cons trivial (.cons trivial (.cons ?_ (.cons trivial (.cons trivial (.cons ?_ (.cons trivial (.nil _)))))))
  · change lookup QueueRow.id (idOr none "first") _ = none
    decide +kernel
  · change lookup QueueRow.id (idOr none "second") _ = none
    decide +kernel

end OpenMinion.InboxReplies
