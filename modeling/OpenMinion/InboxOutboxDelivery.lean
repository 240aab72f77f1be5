import OpenMinion.InboxOutboxStore

/-!
# Deliveries

A message that was settled is not handed out again, provided that no late report reopens it. Until a claim ends nobody
else gets its message.
-/
namespace OpenMinion.InboxOutboxDelivery
open ClaimQueues InboxOutboxStore IsoTimestamps KeyedTables TransitionRuns

structure UniqueIds (s : MessageTables) : Prop where
  inbox : UniqueKey QueueRow.id s.inbox
  outbox : UniqueKey QueueRow.id s.outbox

theorem step_inbox (s : MessageTables) (call : QueueCall) :
    (step s call).inbox = ((inboxOp s call).apply s.inbox).2 :=
  congrArg Prod.snd (perform_inbox s call)

theorem step_outbox (s : MessageTables) (call : QueueCall) :
    (step s call).outbox = ((outboxOp s call).apply s.outbox).2 :=
  congrArg Prod.snd (perform_outbox s call)

theorem uniqueIds_step {s : MessageTables} (h : UniqueIds s) (call : QueueCall) : UniqueIds (step s call) := by
  constructor
  · rw [step_inbox]
    exact uniqueId_apply h.inbox (inboxOp s call)
  · rw [step_outbox]
    exact uniqueId_apply h.outbox (outboxOp s call)

theorem uniqueIds_run (calls : List QueueCall) : UniqueIds (run step {} calls) := by
  have hstart : UniqueIds {} := ⟨.nil, .nil⟩
  exact run_invariant (I := UniqueIds) (fun _ call h => uniqueIds_step h call) hstart calls

/-- The call does not reopen a row that is settled: it reports no failure of one, other than to
bury it again, and enqueues no message under its identifier. -/
def KeepsSettled (s : MessageTables) (call : QueueCall) : Prop :=
  reopens s.inbox (inboxOp s call) = false ∧ reopens s.outbox (outboxOp s call) = false

instance (s : MessageTables) (call : QueueCall) : Decidable (KeepsSettled s call) :=
  inferInstanceAs (Decidable (_ ∧ _))

theorem settled_run {s : MessageTables} (hu : UniqueIds s) {calls : List QueueCall}
    (h : Guarded step KeepsSettled s calls) (id : String) :
    UniqueIds (run step s calls) ∧
      (settledIn id s.inbox = true → settledIn id (run step s calls).inbox = true) ∧
      (settledIn id s.outbox = true → settledIn id (run step s calls).outbox = true) := by
  induction h with
  | nil s => exact ⟨hu, fun hid => hid, fun hid => hid⟩
  | @cons s call calls hkeeps _ ih =>
    obtain ⟨hrun, hinbox, houtbox⟩ := ih (uniqueIds_step hu call)
    rw [step_inbox] at hinbox
    rw [step_outbox] at houtbox
    refine ⟨hrun, fun hid => hinbox ?_, fun hid => houtbox ?_⟩
    · exact settledIn_apply hu.inbox hid hkeeps.1
    · exact settledIn_apply hu.outbox hid hkeeps.2

theorem claimRow_ne_settled {Message : Type} {rows : List (QueueRow String Message String)}
    (hu : UniqueKey QueueRow.id rows) {id : String} (hid : settledIn id rows = true) (lockOwner : String)
    (now agoFrom : DateTime) (tie : ℕ) (reclaimTtl : ℤ) {row : QueueRow String Message String}
    (hrow : (claimRow rows lockOwner now agoFrom tie reclaimTtl).1 = .ok (some row)) : row.id ≠ id := by
  rw [claimRow] at hrow
  cases hago : isoAgo agoFrom reclaimTtl with
  | none =>
    rw [hago] at hrow
    cases hrow
  | some before =>
    rw [hago] at hrow
    exact claim_ne_settled hu hid lockOwner (toIsoUtc now) before tie (Except.ok.inj hrow)

/-- A message that is settled after some calls is not claimed after further ones, if they keep
settled rows. -/
theorem settled_never_claimed {calls later : List QueueCall}
    (h : Guarded step KeepsSettled (run step {} calls) later) (id : String) :
    (settledIn id (run step {} calls).inbox = true → ∀ lockOwner now agoFrom tie reclaimTtl row,
      (claimInbox (run step {} (calls ++ later)) lockOwner now agoFrom tie reclaimTtl).1 = .ok (some row) →
        row.id ≠ id) ∧
    (settledIn id (run step {} calls).outbox = true → ∀ lockOwner now agoFrom tie reclaimTtl row,
      (claimOutbox (run step {} (calls ++ later)) lockOwner now agoFrom tie reclaimTtl).1 = .ok (some row) →
        row.id ≠ id) := by
  rw [run_append]
  obtain ⟨hu, hinbox, houtbox⟩ := settled_run (uniqueIds_run calls) h id
  constructor
  · intro hid lockOwner now agoFrom tie reclaimTtl row hrow
    exact claimRow_ne_settled hu.inbox (hinbox hid) lockOwner now agoFrom tie reclaimTtl hrow
  · intro hid lockOwner now agoFrom tie reclaimTtl row hrow
    exact claimRow_ne_settled hu.outbox (houtbox hid) lockOwner now agoFrom tie reclaimTtl hrow

theorem minute_lt_endOfTime (n : Fin 60) : 63919965600000000 + n * 60000000 < endOfTime := by
  have := n.isLt
  simp only [endOfTime, microsPerDay]
  omega

def minute (n : Fin 60) : DateTime := ⟨63919965600000000 + n * 60000000, minute_lt_endOfTime n⟩

def question : InboxMessage where
  channel := "telegram"
  chatId := "chat"
  channelMessageId := "1"
  userId := "user"

def answer : OutboxMessage where
  channel := "telegram"
  chatId := "chat"

def settledBySecond : List QueueCall :=
  [.enqueueInbox question (some "in") "" (minute 0), .enqueueOutbox answer (some "out") "" (minute 0),
    .claimInbox "first" (minute 0) (minute 0) 0 120, .claimOutbox "first" (minute 0) (minute 0) 0 120,
    .claimInbox "second" (minute 3) (minute 3) 0 120, .claimOutbox "second" (minute 3) (minute 3) 0 120,
    .ackInbox "in", .markOutboxSent "out"]

theorem settled_never_claimed_settledBySecond :
    settledIn "in" (run step {} settledBySecond).inbox = true ∧
      settledIn "out" (run step {} settledBySecond).outbox = true ∧
      (∀ row, (claimInbox (run step {} (settledBySecond ++ [QueueCall.ackInbox "in"])) "third" (minute 9) (minute 9) 0 120).1 =
        .ok (some row) → row.id ≠ "in") ∧
      (∀ row, (claimOutbox (run step {} (settledBySecond ++ [QueueCall.ackInbox "in"])) "third" (minute 9) (minute 9) 0 120).1 =
        .ok (some row) → row.id ≠ "out") := by
  have hrun : Guarded step KeepsSettled (run step {} settledBySecond) [.ackInbox "in"] ∧
      settledIn "in" (run step {} settledBySecond).inbox = true ∧
      settledIn "out" (run step {} settledBySecond).outbox = true := by decide +kernel
  obtain ⟨hlater, hin, hout⟩ := hrun
  refine ⟨hin, hout, ?_, ?_⟩
  · exact (settled_never_claimed hlater "in").1 hin "third" (minute 9) (minute 9) 0 120
  · exact (settled_never_claimed hlater "out").2 hout "third" (minute 9) (minute 9) 0 120

def lateReport : List QueueCall :=
  [.markInboxRetry "in" "timeout" (minute 4) 8 300, .markOutboxRetry "out" "timeout" (minute 4) 8 300]

theorem settled_claimed_after_lateReport :
    settledIn "in" (run step {} settledBySecond).inbox = true ∧
      settledIn "out" (run step {} settledBySecond).outbox = true ∧
      (perform (run step {} (settledBySecond ++ lateReport))
        (.claimInbox "third" (minute 5) (minute 5) 0 120)).1.claimedInbox.map QueueRow.id = some "in" ∧
      (perform (run step {} (settledBySecond ++ lateReport))
        (.claimOutbox "third" (minute 5) (minute 5) 0 120)).1.claimedOutbox.map QueueRow.id = some "out" := by
  decide +kernel

def inboxClaims (outs : List QueueOutcome) (id : String) : ℕ :=
  ((outs.filterMap QueueOutcome.claimedInbox).map QueueRow.id).count id

def outboxClaims (outs : List QueueOutcome) (id : String) : ℕ :=
  ((outs.filterMap QueueOutcome.claimedOutbox).map QueueRow.id).count id

/-- The call makes no row claimable that has no attempt left: it takes none back, reports no
failure of one other than to bury it, and does not enqueue a message again that was tried. -/
def WithinAttempts (maxAttempts : ℕ) (s : MessageTables) (call : QueueCall) : Prop :=
  overruns maxAttempts s.inbox (inboxOp s call) = false ∧ overruns maxAttempts s.outbox (outboxOp s call) = false

instance (maxAttempts : ℕ) (s : MessageTables) (call : QueueCall) : Decidable (WithinAttempts maxAttempts s call) :=
  inferInstanceAs (Decidable (_ ∧ _))

/-- Both tables count what the outcomes handed out. -/
structure TablesCounted (maxAttempts : ℕ) (history : List QueueOutcome) (s : MessageTables) : Prop where
  inbox : Counted ((history.filterMap QueueOutcome.claimedInbox).map QueueRow.id) maxAttempts s.inbox
  outbox : Counted ((history.filterMap QueueOutcome.claimedOutbox).map QueueRow.id) maxAttempts s.outbox

private theorem handed_append {Row : Type} (claimed : QueueOutcome → Option Row) (key : Row → String)
    (history : List QueueOutcome) (outcome : QueueOutcome) :
    ((history ++ [outcome]).filterMap claimed).map key =
      (history.filterMap claimed).map key ++ ((claimed outcome).map key).toList := by
  rw [List.filterMap_append, List.map_append]
  cases hrow : claimed outcome with
  | none => simp [hrow]
  | some row => simp [hrow]

theorem tablesCounted_step {maxAttempts : ℕ} (hmax : 1 ≤ maxAttempts) {history : List QueueOutcome} {s : MessageTables}
    {call : QueueCall} (h : TablesCounted maxAttempts history s) (hok : WithinAttempts maxAttempts s call) :
    TablesCounted maxAttempts (history ++ [(perform s call).1]) (step s call) := by
  constructor
  · have hclaimed := congrArg Prod.fst (perform_inbox s call)
    dsimp only at hclaimed
    rw [handed_append, hclaimed, step_inbox]
    exact h.inbox.apply hmax hok.1
  · have hclaimed := congrArg Prod.fst (perform_outbox s call)
    dsimp only at hclaimed
    rw [handed_append, hclaimed, step_outbox]
    exact h.outbox.apply hmax hok.2

/-- No message is handed out more than `max_attempts` times, if no call gives a row more attempts. -/
theorem claimed_at_most {maxAttempts : ℕ} (hmax : 1 ≤ maxAttempts) {calls : List QueueCall}
    (h : Guarded step (WithinAttempts maxAttempts) {} calls) (id : String) :
    inboxClaims (outcomes perform {} calls) id ≤ maxAttempts ∧
      outboxClaims (outcomes perform {} calls) id ≤ maxAttempts := by
  have hstart : TablesCounted maxAttempts [] {} := ⟨.nil maxAttempts, .nil maxAttempts⟩
  have hend : TablesCounted maxAttempts ([] ++ outcomes perform {} calls) (run step {} calls) :=
    Guarded.outcomes_invariant (I := TablesCounted maxAttempts) (fun _ _ _ hs hok => tablesCounted_step hmax hs hok)
      h hstart
  exact ⟨hend.inbox.count_le id, hend.outbox.count_le id⟩

def oneReport : List QueueCall :=
  [.enqueueInbox question (some "in") "" (minute 0), .enqueueOutbox answer (some "out") "" (minute 0),
    .claimInbox "first" (minute 0) (minute 0) 0 120, .claimOutbox "first" (minute 0) (minute 0) 0 120,
    .markInboxRetry "in" "timeout" (minute 1) 2 300, .markOutboxRetry "out" "timeout" (minute 1) 2 300,
    .claimInbox "second" (minute 3) (minute 3) 0 120, .claimOutbox "second" (minute 3) (minute 3) 0 120]

theorem claimed_at_most_oneReport :
    inboxClaims (outcomes perform {} oneReport) "in" = 2 ∧ outboxClaims (outcomes perform {} oneReport) "out" = 2 ∧
      inboxClaims (outcomes perform {} oneReport) "in" ≤ 2 ∧
      outboxClaims (outcomes perform {} oneReport) "out" ≤ 2 := by
  have hcalls : Guarded step (WithinAttempts 2) {} oneReport := by decide +kernel
  have hclaims : inboxClaims (outcomes perform {} oneReport) "in" = 2 ∧
      outboxClaims (outcomes perform {} oneReport) "out" = 2 := by decide +kernel
  have hin := claimed_at_most (by decide) hcalls "in"
  have hout := claimed_at_most (by decide) hcalls "out"
  exact ⟨hclaims.1, hclaims.2, hin.1, hout.2⟩

/-- The messages are taken back from the second worker, with `max_attempts` spent. -/
theorem claimed_beyond_limit :
    ¬ inboxClaims (outcomes perform {} (oneReport ++ [QueueCall.claimInbox "third" (minute 6) (minute 6) 0 120])) "in" ≤ 2 ∧
      ¬ outboxClaims (outcomes perform {} (oneReport ++ [QueueCall.claimOutbox "third" (minute 6) (minute 6) 0 120])) "out" ≤
        2 := by
  decide +kernel

/-- The call leaves the inbox row alone that was claimed at `lockedAt`: it does not report about it
and takes no claim of that time back. -/
def LeavesInbox (inboxId lockedAt : String) (s : MessageTables) (call : QueueCall) : Prop :=
  endsClaim inboxId lockedAt (inboxOp s call) = false

/-- As for the inbox; the call does not enqueue the message again either. -/
def LeavesOutbox (outboxId lockedAt : String) (s : MessageTables) (call : QueueCall) : Prop :=
  endsClaim outboxId lockedAt (outboxOp s call) = false

instance (inboxId lockedAt : String) (s : MessageTables) (call : QueueCall) :
    Decidable (LeavesInbox inboxId lockedAt s call) := inferInstanceAs (Decidable (_ = _))

instance (outboxId lockedAt : String) (s : MessageTables) (call : QueueCall) :
    Decidable (LeavesOutbox outboxId lockedAt s call) := inferInstanceAs (Decidable (_ = _))

/-- A row that is held in one of the tables is not handed out while no call ends its claim. -/
theorem held_run {Message : Type} {rows : MessageTables → List (QueueRow String Message String)}
    {op : MessageTables → QueueCall → QueueOp String Message String}
    {claimed : QueueOutcome → Option (QueueRow String Message String)}
    (hunique : ∀ s, UniqueIds s → UniqueKey QueueRow.id (rows s))
    (hperform : ∀ s call, (claimed (perform s call).1, rows (step s call)) = (op s call).apply (rows s))
    {s : MessageTables} (hu : UniqueIds s) {id lockedAt : String} {calls : List QueueCall}
    (h : Guarded step (fun s call => endsClaim id lockedAt (op s call) = false) s calls)
    (hheld : heldSince id lockedAt (rows s) = true) :
    (((outcomes perform s calls).filterMap claimed).map QueueRow.id).count id = 0 := by
  induction h with
  | nil s => rfl
  | @cons s call calls hleaves _ ih =>
    obtain ⟨hkept, hother⟩ := heldSince_apply (hunique s hu) hheld hleaves
    rw [← hperform] at hkept hother
    have hlater := ih (uniqueIds_step hu call) hkept
    rw [outcomes, List.filterMap_cons]
    cases hrow : claimed (perform s call).1 with
    | none => exact hlater
    | some row =>
      rw [List.map_cons, List.count_cons_of_ne (hother row hrow)]
      exact hlater

/-- A message that a worker has claimed is handed out to nobody while no call reports about it, and
no claim takes back what was claimed at that time. -/
theorem held_exclusive (calls later : List QueueCall) (call : QueueCall) (lockedAt : String) :
    (∀ row, (perform (run step {} calls) call).1.claimedInbox = some row → row.lockedAt = some lockedAt →
      Guarded step (LeavesInbox row.id lockedAt) (step (run step {} calls) call) later →
      inboxClaims (outcomes perform (step (run step {} calls) call) later) row.id = 0) ∧
    (∀ row, (perform (run step {} calls) call).1.claimedOutbox = some row → row.lockedAt = some lockedAt →
      Guarded step (LeavesOutbox row.id lockedAt) (step (run step {} calls) call) later →
      outboxClaims (outcomes perform (step (run step {} calls) call) later) row.id = 0) := by
  have hu := uniqueIds_run calls
  have hnext := uniqueIds_step hu call
  constructor
  · intro row hrow hlocked hlater
    refine held_run (fun _ h => h.inbox) perform_inbox hnext hlater ?_
    have hclaimed := (congrArg Prod.fst (perform_inbox (run step {} calls) call)).symm.trans hrow
    rw [step_inbox]
    exact heldSince_of_claimed hu.inbox hclaimed hlocked
  · intro row hrow hlocked hlater
    refine held_run (fun _ h => h.outbox) perform_outbox hnext hlater ?_
    have hclaimed := (congrArg Prod.fst (perform_outbox (run step {} calls) call)).symm.trans hrow
    rw [step_outbox]
    exact heldSince_of_claimed hu.outbox hclaimed hlocked

def arrivals : List QueueCall :=
  [.enqueueInbox question (some "in") "" (minute 0), .enqueueOutbox answer (some "out") "" (minute 0)]

theorem held_exclusive_second :
    inboxClaims (outcomes perform
      (step (run step {} arrivals) (.claimInbox "first" (minute 0) (minute 0) 0 120))
      [.claimInbox "second" (minute 1) (minute 1) 0 120]) "in" = 0 ∧
    outboxClaims (outcomes perform
      (step (run step {} arrivals) (.claimOutbox "first" (minute 0) (minute 0) 0 120))
      [.claimOutbox "second" (minute 1) (minute 1) 0 120]) "out" = 0 := by
  constructor
  · refine (held_exclusive arrivals _ _ (toIsoUtc (minute 0))).1
      (hold "first" (toIsoUtc (minute 0)) (arrival "in" question (toIsoUtc (minute 0)))) ?_ rfl ?_
    · decide +kernel
    · decide +kernel
  · refine (held_exclusive arrivals _ _ (toIsoUtc (minute 0))).2
      (hold "first" (toIsoUtc (minute 0)) (arrival "out" answer (toIsoUtc (minute 0)))) ?_ rfl ?_
    · decide +kernel
    · decide +kernel

end OpenMinion.InboxOutboxDelivery
