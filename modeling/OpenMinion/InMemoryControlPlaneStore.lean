import OpenMinion.InboxOutboxDelivery

/-!
# The inbox and the outbox in memory

The calls of `InMemoryControlPlaneStore` return what those of the durable store do, as long as no claim finds a row to
take back, every report names a row, and no message brings the identifier of another one.
-/
namespace OpenMinion.InMemoryControlPlaneStore
open ClaimQueues InboxOutboxDelivery InboxOutboxStore IsoTimestamps KeyedTables TransitionRuns

structure MemoryStore where
  inbox : List InboxRow := []
  inboxDedupe : List ((String × String × String) × String) := []
  outbox : List OutboxRow := []

section Rows

variable {Message : Type} (rows : List (QueueRow String Message String))

/-- `claim_inbox` and `claim_outbox`. They do not read `reclaim_ttl_s`, and take the first of
the oldest rows since sorting is stable. -/
def claimRow (lockOwner : String) (now : DateTime) :
    Option (QueueRow String Message String) × List (QueueRow String Message String) :=
  match nextDue (toIsoUtc now) 0 rows with
  | none => (none, rows)
  | some r =>
    (some (hold lockOwner (toIsoUtc now) r), updateWhere (fun x => x.id = r.id) (hold lockOwner (toIsoUtc now)) rows)

def buryRow (error : String) (r : QueueRow String Message String) : QueueRow String Message String :=
  { r with status := .dead, error := some error }

/-- `mark_inbox_retry` and `mark_outbox_retry`. -/
def markRetry (id error : String) (now : DateTime) (maxAttempts maxBackoff : ℤ) :
    Except StoreError RetryDecision × List (QueueRow String Message String) :=
  match lookup QueueRow.id id rows with
  | none => (.ok .dead, rows)
  | some row =>
    if maxAttempts ≤ row.attempts then (.ok .dead, updateWhere (fun r => r.id = id) (buryRow (clip error)) rows)
    else match isoAfter now (backoff maxBackoff row.attempts) with
      | none => (.error .overflowError, rows)
      | some nextAttemptAt => (.ok .retry, postpone id (clip error) nextAttemptAt rows)

end Rows

section Calls

variable (m : MemoryStore)

def enqueueInbox (message : InboxMessage) (inboundId : Option String) (freshId : String) (now : DateTime) :
    (String × Bool) × MemoryStore :=
  match lookup Prod.fst message.dedupeKey m.inboxDedupe with
  | some (_, existing) => ((existing, false), m)
  | none =>
    let inboxId := idOr inboundId freshId
    ((inboxId, true),
      { m with inboxDedupe := upsertRow Prod.fst (message.dedupeKey, inboxId) m.inboxDedupe
               inbox := upsertRow QueueRow.id (arrival inboxId message (toIsoUtc now)) m.inbox })

def claimInbox (lockOwner : String) (now : DateTime) : Option InboxRow × MemoryStore :=
  let (row, rows) := claimRow m.inbox lockOwner now
  (row, { m with inbox := rows })

def ackInbox (inboxId : String) : MemoryStore := { m with inbox := complete inboxId m.inbox }

def failInbox (inboxId error : String) : MemoryStore := { m with inbox := fail inboxId (clip error) m.inbox }

def markInboxRetry (inboxId error : String) (now : DateTime) (maxAttempts : ℤ := 8) (maxBackoff : ℤ := 300) :
    Except StoreError RetryDecision × MemoryStore :=
  let (result, rows) := markRetry m.inbox inboxId error now maxAttempts maxBackoff
  (result, { m with inbox := rows })

def enqueueOutbox (message : OutboxMessage) (outboxId : Option String) (freshId : String) (now : DateTime) :
    String × MemoryStore :=
  let oid := idOr outboxId freshId
  (oid, { m with outbox := upsertRow QueueRow.id (arrival oid message (toIsoUtc now)) m.outbox })

def claimOutbox (lockOwner : String) (now : DateTime) : Option OutboxRow × MemoryStore :=
  let (row, rows) := claimRow m.outbox lockOwner now
  (row, { m with outbox := rows })

def markOutboxSent (outboxId : String) : MemoryStore := { m with outbox := complete outboxId m.outbox }

def markOutboxRetry (outboxId error : String) (now : DateTime) (maxAttempts : ℤ := 8) (maxBackoff : ℤ := 300) :
    Except StoreError RetryDecision × MemoryStore :=
  let (result, rows) := markRetry m.outbox outboxId error now maxAttempts maxBackoff
  (result, { m with outbox := rows })

end Calls

def perform (m : MemoryStore) : QueueCall → QueueOutcome × MemoryStore
  | .enqueueInbox message inboundId freshId now =>
    let ((id, inserted), m') := enqueueInbox m message inboundId freshId now
    (.inboxId id inserted, m')
  | .claimInbox lockOwner now _ _ _ =>
    let (row, m') := claimInbox m lockOwner now
    (.inboxRow row, m')
  | .ackInbox inboxId => (.nothing, ackInbox m inboxId)
  | .failInbox inboxId error => (.nothing, failInbox m inboxId error)
  | .markInboxRetry inboxId error now maxAttempts maxBackoff =>
    let (result, m') := markInboxRetry m inboxId error now maxAttempts maxBackoff
    (.ofResult .decision result, m')
  | .enqueueOutbox message outboxId freshId now =>
    let (oid, m') := enqueueOutbox m message outboxId freshId now
    (.outboxId oid, m')
  | .claimOutbox lockOwner now _ _ _ =>
    let (row, m') := claimOutbox m lockOwner now
    (.outboxRow row, m')
  | .markOutboxSent outboxId => (.nothing, markOutboxSent m outboxId)
  | .markOutboxRetry outboxId error now maxAttempts maxBackoff =>
    let (result, m') := markOutboxRetry m outboxId error now maxAttempts maxBackoff
    (.ofResult .decision result, m')

section Conditions

variable {Message : Type} (rows : List (QueueRow String Message String))

def claimsAlike (agoFrom : DateTime) (reclaimTtl : ℤ) : Bool :=
  (isoAgo agoFrom reclaimTtl).any fun before => rows.all fun r => !isStale before r

def reportsAlike (id : String) (maxAttempts : ℤ) : Bool :=
  (lookup QueueRow.id id rows).isSome || maxAttempts ≤ 0

end Conditions

def StoresAgree (s : MessageTables) : QueueCall → Prop
  | .enqueueInbox message inboundId freshId _ =>
    (lookup (fun r => r.message.dedupeKey) message.dedupeKey s.inbox).isSome = true ∨
      lookup QueueRow.id (idOr inboundId freshId) s.inbox = none
  | .claimInbox _ _ agoFrom _ reclaimTtl => claimsAlike s.inbox agoFrom reclaimTtl = true
  | .markInboxRetry inboxId _ _ maxAttempts _ => reportsAlike s.inbox inboxId maxAttempts = true
  | .claimOutbox _ _ agoFrom _ reclaimTtl => claimsAlike s.outbox agoFrom reclaimTtl = true
  | .markOutboxRetry outboxId _ _ maxAttempts _ => reportsAlike s.outbox outboxId maxAttempts = true
  | .ackInbox _ | .failInbox _ _ | .enqueueOutbox _ _ _ _ | .markOutboxSent _ => True

def DistinctTimes (s : MessageTables) : Prop :=
  UniqueKey QueueRow.arrivedAt s.inbox ∧ UniqueKey QueueRow.arrivedAt s.outbox

section Rows

variable {Message : Type} {rows : List (QueueRow String Message String)}

def unlockDead (r : QueueRow String Message String) : QueueRow String Message String :=
  if r.status = .dead then { r with lockOwner := none, lockedAt := none } else r

theorem id_unlockDead (r : QueueRow String Message String) : (unlockDead r).id = r.id := by
  rw [unlockDead]
  split
  · rfl
  · rfl

theorem attempts_unlockDead (r : QueueRow String Message String) : (unlockDead r).attempts = r.attempts := by
  rw [unlockDead]
  split
  · rfl
  · rfl

theorem message_unlockDead (r : QueueRow String Message String) : (unlockDead r).message = r.message := by
  rw [unlockDead]
  split
  · rfl
  · rfl

theorem attemptsOf_unlockDead (id : String) : attemptsOf id (rows.map unlockDead) = attemptsOf id rows := by
  rw [attemptsOf, attemptsOf, lookup_map id_unlockDead, Option.map_map]
  simp only [Function.comp_def, attempts_unlockDead]

theorem updateWhere_unlockDead {f g : QueueRow String Message String → QueueRow String Message String}
    (hfg : ∀ r, f (unlockDead r) = unlockDead (g r)) (id : String) :
    updateWhere (fun r => r.id = id) f (rows.map unlockDead) =
      (updateWhere (fun r => r.id = id) g rows).map unlockDead := by
  apply updateWhere_map _ hfg
  intro r
  rw [id_unlockDead]

theorem unlockDead_update {f : QueueRow String Message String → QueueRow String Message String}
    (hlock : ∀ r, f { r with lockOwner := none, lockedAt := none } = f r) (hf : ∀ r, unlockDead (f r) = f r)
    (r : QueueRow String Message String) : f (unlockDead r) = unlockDead (f r) := by
  rw [hf, unlockDead]
  split
  · exact hlock r
  · rfl

theorem filter_isDue_unlockDead (now : String) :
    (rows.map unlockDead).filter (isDue now) = rows.filter (isDue now) := by
  induction rows with
  | nil => rfl
  | cons r rows ih =>
    rw [List.map_cons, List.filter_cons, List.filter_cons, ih]
    by_cases hdead : r.status = .dead
    · simp [unlockDead, isDue, isOpen, hdead]
    · simp [unlockDead, hdead]

theorem nextDue_unlockDead (now : String) (tie : ℕ) : nextDue now tie (rows.map unlockDead) = nextDue now tie rows := by
  rw [nextDue, nextDue, oldestDue, oldestDue, filter_isDue_unlockDead]

theorem hold_unlockDead (owner now : String) (r : QueueRow String Message String) :
    hold owner now (unlockDead r) = unlockDead (hold owner now r) :=
  unlockDead_update (fun _ => rfl) (fun _ => rfl) r

theorem asCompleted_unlockDead (r : QueueRow String Message String) :
    asCompleted (unlockDead r) = unlockDead (asCompleted r) :=
  unlockDead_update (fun _ => rfl) (fun _ => rfl) r

theorem asFailed_unlockDead (error : String) (r : QueueRow String Message String) :
    asFailed error (unlockDead r) = unlockDead (asFailed error r) :=
  unlockDead_update (fun _ => rfl) (fun _ => rfl) r

theorem asPostponed_unlockDead (error nextAttemptAt : String) (r : QueueRow String Message String) :
    asPostponed error nextAttemptAt (unlockDead r) = unlockDead (asPostponed error nextAttemptAt r) :=
  unlockDead_update (fun _ => rfl) (fun _ => rfl) r

theorem asDead_unlockDead (error : String) (r : QueueRow String Message String) :
    asDead error (unlockDead r) = unlockDead (buryRow error r) := by
  by_cases hdead : r.status = .dead
  · simp [unlockDead, asDead, buryRow, hdead]
  · simp [unlockDead, asDead, buryRow, hdead]

theorem claimRow_unlockDead {durable : List (QueueRow String Message String)} (hrows : durable = rows.map unlockDead)
    (hu : UniqueKey QueueRow.id durable) (htimes : UniqueKey QueueRow.arrivedAt durable) {agoFrom : DateTime}
    {reclaimTtl : ℤ} (halike : claimsAlike durable agoFrom reclaimTtl = true) (lockOwner : String) (now : DateTime)
    (tie : ℕ) :
    InboxOutboxStore.claimRow durable lockOwner now agoFrom tie reclaimTtl =
      (.ok (claimRow rows lockOwner now).1, (claimRow rows lockOwner now).2.map unlockDead) := by
  subst hrows
  rw [claimsAlike] at halike
  cases hago : isoAgo agoFrom reclaimTtl with
  | none =>
    rw [hago] at halike
    cases halike
  | some before =>
    have hreclaim : reclaim before (rows.map unlockDead) = rows.map unlockDead := by
      apply updateWhere_eq_self
      intro r hr
      rw [hago, Option.any_some, List.all_eq_true] at halike
      simpa using halike r hr
    have hclaim : claim lockOwner (toIsoUtc now) before tie (rows.map unlockDead) =
        ((claimRow rows lockOwner now).1, (claimRow rows lockOwner now).2.map unlockDead) := by
      rw [claim, hreclaim, takeNext_eq hu, nextDue_tie htimes (toIsoUtc now) tie 0, nextDue_unlockDead, claimRow]
      cases nextDue (toIsoUtc now) 0 rows with
      | none => rfl
      | some r =>
        dsimp only
        rw [updateWhere_unlockDead (hold_unlockDead lockOwner (toIsoUtc now))]
    rw [InboxOutboxStore.claimRow, hago]
    dsimp only
    rw [hclaim]

theorem markRetry_unlockDead {durable : List (QueueRow String Message String)} (hrows : durable = rows.map unlockDead)
    {id : String} {maxAttempts : ℤ} (halike : reportsAlike durable id maxAttempts = true) (error : String)
    (now : DateTime) (maxBackoff : ℤ) :
    InboxOutboxStore.markRetry durable id error now maxAttempts maxBackoff =
      ((markRetry rows id error now maxAttempts maxBackoff).1,
        (markRetry rows id error now maxAttempts maxBackoff).2.map unlockDead) := by
  subst hrows
  rw [InboxOutboxStore.markRetry, markRetry, attemptsOf_unlockDead]
  cases hl : lookup QueueRow.id id rows with
  | none =>
    have hzero : maxAttempts ≤ 0 := by simpa [reportsAlike, lookup_map id_unlockDead, hl] using halike
    have hattempts : attemptsOf id rows = 0 := by rw [attemptsOf, hl]; rfl
    have habsent : bury id (clip error) (rows.map unlockDead) = rows.map unlockDead := by
      apply updateWhere_eq_self
      intro r hr
      have hnone : lookup QueueRow.id id (rows.map unlockDead) = none := by rw [lookup_map id_unlockDead, hl]; rfl
      exact decide_eq_false (lookup_eq_none.mp hnone r hr)
    rw [hattempts, if_pos (by exact_mod_cast hzero), habsent]
  | some row =>
    have hattempts : attemptsOf id rows = row.attempts := by rw [attemptsOf, hl]; rfl
    rw [hattempts]
    dsimp only
    split
    · rw [bury, updateWhere_unlockDead (asDead_unlockDead (clip error))]
    · cases isoAfter now (backoff maxBackoff row.attempts) with
      | none => rfl
      | some nextAttemptAt =>
        dsimp only
        rw [postpone, postpone, updateWhere_unlockDead (asPostponed_unlockDead (clip error) nextAttemptAt)]

end Rows

def dedupeEntry (r : InboxRow) : (String × String × String) × String := (r.message.dedupeKey, r.id)

/-- The durable store has the rows of the store in memory, and the dictionary of messages is
an index of them. -/
structure Mirrors (s : MessageTables) (m : MemoryStore) : Prop where
  uniqueIds : UniqueIds s
  inbox : s.inbox = m.inbox.map unlockDead
  outbox : s.outbox = m.outbox.map unlockDead
  dedupe : m.inboxDedupe = m.inbox.map dedupeEntry

theorem dedupe_claimRow (rows : List InboxRow) (lockOwner : String) (now : DateTime) :
    (claimRow rows lockOwner now).2.map dedupeEntry = rows.map dedupeEntry := by
  rw [claimRow]
  split
  · rfl
  · exact map_key_updateWhere fun _ _ => rfl

theorem dedupe_markRetry (rows : List InboxRow) (id error : String) (now : DateTime) (maxAttempts maxBackoff : ℤ) :
    (markRetry rows id error now maxAttempts maxBackoff).2.map dedupeEntry = rows.map dedupeEntry := by
  rw [markRetry]
  split
  · rfl
  · split
    · exact map_key_updateWhere fun _ _ => rfl
    · split
      · rfl
      · exact map_key_updateWhere fun _ _ => rfl

namespace Mirrors

variable {s : MessageTables} {m : MemoryStore}

theorem setInbox (h : Mirrors s m) {rows rows' : List InboxRow} (hu : UniqueKey QueueRow.id rows)
    (hrows : rows = rows'.map unlockDead) (hdedupe : rows'.map dedupeEntry = m.inbox.map dedupeEntry) :
    Mirrors { s with inbox := rows } { m with inbox := rows' } :=
  ⟨⟨hu, h.uniqueIds.outbox⟩, hrows, h.outbox, h.dedupe.trans hdedupe.symm⟩

theorem setOutbox (h : Mirrors s m) {rows rows' : List OutboxRow} (hu : UniqueKey QueueRow.id rows)
    (hrows : rows = rows'.map unlockDead) : Mirrors { s with outbox := rows } { m with outbox := rows' } :=
  ⟨⟨h.uniqueIds.inbox, hu⟩, h.inbox, hrows, h.dedupe⟩

theorem lookup_dedupe (h : Mirrors s m) (key : String × String × String) :
    lookup (fun r => r.message.dedupeKey) key s.inbox =
        (lookup (fun r => r.message.dedupeKey) key m.inbox).map unlockDead ∧
      lookup Prod.fst key m.inboxDedupe = (lookup (fun r => r.message.dedupeKey) key m.inbox).map dedupeEntry := by
  constructor
  · rw [h.inbox]
    apply lookup_map
    intro r
    rw [message_unlockDead]
  · rw [h.dedupe, lookup, lookup, List.find?_map]
    rfl

theorem enqueueInbox (h : Mirrors s m) {message : InboxMessage} {inboundId : Option String} {freshId : String}
    {now : DateTime} (hagree : StoresAgree s (.enqueueInbox message inboundId freshId now)) :
    (InboxOutboxStore.perform s (.enqueueInbox message inboundId freshId now)).1 =
        (perform m (.enqueueInbox message inboundId freshId now)).1 ∧
      Mirrors (step s (.enqueueInbox message inboundId freshId now))
        (perform m (.enqueueInbox message inboundId freshId now)).2 := by
  have hunique := uniqueIds_step h.uniqueIds (.enqueueInbox message inboundId freshId now)
  obtain ⟨hdurable, hmemory⟩ := h.lookup_dedupe message.dedupeKey
  rw [step] at hunique ⊢
  rw [InboxOutboxStore.perform, InboxOutboxStore.enqueueInbox] at hunique ⊢
  rw [perform, InMemoryControlPlaneStore.enqueueInbox]
  cases hfound : lookup (fun r => r.message.dedupeKey) message.dedupeKey m.inbox with
  | some r =>
    rw [hfound] at hdurable hmemory
    rw [hdurable, hmemory]
    refine ⟨?_, h⟩
    change QueueOutcome.inboxId (unlockDead r).id false = .inboxId r.id false
    rw [id_unlockDead]
  | none =>
    rw [hfound] at hdurable hmemory
    have habsent : lookup QueueRow.id (idOr inboundId freshId) s.inbox = none := by
      rcases hagree with hsome | hnone
      · rw [hdurable] at hsome
        cases hsome
      · exact hnone
    have hmemoryAbsent : lookup QueueRow.id (idOr inboundId freshId) m.inbox = none := by
      rw [h.inbox, lookup_map id_unlockDead] at habsent
      exact Option.map_eq_none_iff.mp habsent
    rw [hdurable] at hunique ⊢
    rw [habsent] at hunique
    rw [hmemory, habsent]
    refine ⟨rfl, hunique, ?_, h.outbox, ?_⟩
    · have hinsert : upsertRow QueueRow.id (arrival (idOr inboundId freshId) message (toIsoUtc now)) s.inbox =
          s.inbox ++ [arrival (idOr inboundId freshId) message (toIsoUtc now)] := upsertRow_of_absent habsent
      have hmap := upsertRow_map (t := m.inbox) id_unlockDead
        (show unlockDead (arrival (idOr inboundId freshId) message (toIsoUtc now)) = _ from rfl)
      rw [← h.inbox, hinsert] at hmap
      exact hmap
    · have hinsert : upsertRow QueueRow.id (arrival (idOr inboundId freshId) message (toIsoUtc now)) m.inbox =
          m.inbox ++ [arrival (idOr inboundId freshId) message (toIsoUtc now)] := upsertRow_of_absent hmemoryAbsent
      have hentry : upsertRow Prod.fst (message.dedupeKey, idOr inboundId freshId) m.inboxDedupe =
          m.inboxDedupe ++ [(message.dedupeKey, idOr inboundId freshId)] := upsertRow_of_absent hmemory
      change upsertRow Prod.fst _ m.inboxDedupe = (upsertRow QueueRow.id _ m.inbox).map dedupeEntry
      rw [hentry, hinsert, List.map_append, ← h.dedupe]
      rfl

theorem perform (h : Mirrors s m) (htimes : DistinctTimes s) {call : QueueCall} (hagree : StoresAgree s call) :
    (InboxOutboxStore.perform s call).1 = (perform m call).1 ∧ Mirrors (step s call) (perform m call).2 := by
  have hunique := uniqueIds_step h.uniqueIds call
  cases call with
  | enqueueInbox message inboundId freshId now => exact h.enqueueInbox hagree
  | claimInbox lockOwner now agoFrom tie reclaimTtl =>
    have hclaim := claimRow_unlockDead h.inbox h.uniqueIds.inbox htimes.1 hagree lockOwner now tie
    refine ⟨?_, h.setInbox hunique.inbox (congrArg Prod.snd hclaim) (dedupe_claimRow m.inbox lockOwner now)⟩
    change QueueOutcome.ofResult .inboxRow (InboxOutboxStore.claimRow s.inbox lockOwner now agoFrom tie reclaimTtl).1 = _
    rw [hclaim]
    rfl
  | ackInbox inboxId =>
    refine ⟨rfl, h.setInbox hunique.inbox ?_ (map_key_updateWhere fun _ _ => rfl)⟩
    rw [h.inbox]
    exact updateWhere_unlockDead asCompleted_unlockDead inboxId
  | failInbox inboxId error =>
    refine ⟨rfl, h.setInbox hunique.inbox ?_ (map_key_updateWhere fun _ _ => rfl)⟩
    rw [h.inbox]
    exact updateWhere_unlockDead (asFailed_unlockDead (clip error)) inboxId
  | markInboxRetry inboxId error now maxAttempts maxBackoff =>
    have hreport := markRetry_unlockDead h.inbox hagree error now maxBackoff
    refine ⟨?_, h.setInbox hunique.inbox (congrArg Prod.snd hreport) (dedupe_markRetry m.inbox _ _ _ _ _)⟩
    change QueueOutcome.ofResult .decision
      (InboxOutboxStore.markRetry s.inbox inboxId error now maxAttempts maxBackoff).1 = _
    rw [hreport]
    rfl
  | enqueueOutbox message outboxId freshId now =>
    refine ⟨rfl, h.setOutbox hunique.outbox ?_⟩
    rw [h.outbox]
    exact upsertRow_map id_unlockDead rfl
  | claimOutbox lockOwner now agoFrom tie reclaimTtl =>
    have hclaim := claimRow_unlockDead h.outbox h.uniqueIds.outbox htimes.2 hagree lockOwner now tie
    refine ⟨?_, h.setOutbox hunique.outbox (congrArg Prod.snd hclaim)⟩
    change QueueOutcome.ofResult .outboxRow (InboxOutboxStore.claimRow s.outbox lockOwner now agoFrom tie reclaimTtl).1 =
      _
    rw [hclaim]
    rfl
  | markOutboxSent outboxId =>
    refine ⟨rfl, h.setOutbox hunique.outbox ?_⟩
    rw [h.outbox]
    exact updateWhere_unlockDead asCompleted_unlockDead outboxId
  | markOutboxRetry outboxId error now maxAttempts maxBackoff =>
    have hreport := markRetry_unlockDead h.outbox hagree error now maxBackoff
    refine ⟨?_, h.setOutbox hunique.outbox (congrArg Prod.snd hreport)⟩
    change QueueOutcome.ofResult .decision
      (InboxOutboxStore.markRetry s.outbox outboxId error now maxAttempts maxBackoff).1 = _
    rw [hreport]
    rfl

end Mirrors

instance (s : MessageTables) : Decidable (DistinctTimes s) :=
  inferInstanceAs (Decidable ((s.inbox.map QueueRow.arrivedAt).Nodup ∧ (s.outbox.map QueueRow.arrivedAt).Nodup))

instance (s : MessageTables) : (call : QueueCall) → Decidable (StoresAgree s call)
  | .enqueueInbox .. => inferInstanceAs (Decidable (_ ∨ _))
  | .claimInbox .. | .markInboxRetry .. | .claimOutbox .. | .markOutboxRetry .. => inferInstanceAs (Decidable (_ = _))
  | .ackInbox .. | .failInbox .. | .enqueueOutbox .. | .markOutboxSent .. => inferInstanceAs (Decidable True)

/-- The stores return the same for every sequence of calls, as long as they agree on each of them. -/
theorem outcomes_inMemory {calls : List QueueCall} (htimes : Guarded step (fun s _ => DistinctTimes s) {} calls)
    (hagree : Guarded step StoresAgree {} calls) :
    outcomes InboxOutboxStore.perform {} calls = outcomes perform {} calls := by
  have hstart : Mirrors {} {} := ⟨⟨.nil, .nil⟩, rfl, rfl, rfl⟩
  refine Guarded.outcomes_eq (R := Mirrors) ?_ (htimes.and hagree) hstart
  intro s m call h hok
  exact h.perform hok.1 hok.2

def agreedCalls : List QueueCall :=
  [.enqueueInbox question (some "in") "" (minute 0), .enqueueInbox question none "again" (minute 1),
    .enqueueOutbox answer none "out" (minute 1), .claimInbox "first" (minute 2) (minute 2) 3 120,
    .claimOutbox "first" (minute 2) (minute 2) 0 120, .markInboxRetry "in" "timeout" (minute 3) 8 300,
    .markOutboxRetry "out" "timeout" (minute 3) 1 300, .claimInbox "second" (minute 9) (minute 9) 0 120,
    .ackInbox "in", .claimOutbox "second" (minute 9) (minute 9) 0 120]

theorem outcomes_inMemory_agreedCalls :
    (outcomes perform {} agreedCalls).drop 6 = [.decision .dead,
        .inboxRow (some { id := "in", message := question, arrivedAt := toIsoUtc (minute 0), status := .held,
                          error := some "timeout", attempts := 2, nextAttemptAt := "2026-07-18T10:03:01+00:00",
                          lockedAt := some (toIsoUtc (minute 9)), lockOwner := some "second" }),
        .nothing, .outboxRow none] ∧
      outcomes InboxOutboxStore.perform {} agreedCalls = outcomes perform {} agreedCalls := by
  have htimes : Guarded step (fun s _ => DistinctTimes s) {} agreedCalls := by decide +kernel
  have hagree : Guarded step StoresAgree {} agreedCalls := by decide +kernel
  exact ⟨by decide +kernel, outcomes_inMemory htimes hagree⟩

def unreportedClaim : List QueueCall :=
  [.enqueueInbox question (some "in") "" (minute 0), .claimInbox "first" (minute 0) (minute 0) 0 120,
    .claimInbox "second" (minute 3) (minute 3) 0 120]

theorem outcomes_inMemory_unreportedClaim :
    (outcomes perform {} unreportedClaim).getLast? = some (.inboxRow none) ∧
      outcomes InboxOutboxStore.perform {} unreportedClaim ≠ outcomes perform {} unreportedClaim := by
  decide +kernel

end OpenMinion.InMemoryControlPlaneStore
