import OpenMinion.FencingTokens
import OpenMinion.SessionTables
import OpenMinion.TransitionRuns

/-!
# Session turn leases

The lease store keeps one row per session. A renewal or release whose fence token does not match the unreleased row is
a no-op, and `assertFence` raises. Expiry is decided by comparing ISO texts.
-/
namespace OpenMinion.SessionTurnLeases
open FencingTokens IsoTimestamps KeyedTables PythonText SessionTables TransitionRuns

structure SessionTurnLease where
  sessionId : String
  owner : String
  requestId : String
  fenceToken : ℤ
  acquiredAt : DateTime
  renewedAt : DateTime
  expiresAt : DateTime
  deriving DecidableEq

def SessionTurnLease.fromRow (row : TurnLeaseRow) : SessionTurnLease where
  sessionId := row.sessionId
  owner := row.owner
  requestId := row.requestId
  fenceToken := row.fenceToken
  acquiredAt := row.acquiredAt
  renewedAt := row.renewedAt
  expiresAt := row.expiresAt

/-- The expiry instant of `_lease_expiry`. -/
def leaseExpiry (now : DateTime) (ttlS : ℤ) : Except StoreError DateTime :=
  match now.addSeconds (max 1 ttlS) with
  | some expires => .ok expires
  | none => .error .overflowError

/-- `int(timedelta.total_seconds())` of a non-negative difference: the quotient of the
microseconds is rounded to 53 bits, ties to even, before it is truncated. -/
def totalSeconds (micros : ℕ) : ℕ :=
  let scale := 2 ^ (52 - Nat.log2 (micros / 1000000))
  let rounded := micros * scale / 1000000
  let rest := micros * scale % 1000000
  let up := if 500000 < rest ∨ rest = 500000 ∧ rounded % 2 = 1 then 1 else 0
  (rounded + up) / scale

def retryAfterSeconds (expiresAt now : DateTime) : ℤ :=
  max 1 (totalSeconds (expiresAt.micros - now.micros))

/-- Arguments of `acquire`. -/
structure AcquireLease where
  sessionId : String
  owner : String
  requestId : String
  ttlS : ℤ := 60
  now : DateTime

/-- What `acquire` computes from its arguments before the transaction. -/
structure AcquireArguments where
  sid : String
  leaseOwner : String
  request : String
  now : DateTime
  expires : DateTime

def acquireArguments (a : AcquireLease) : Except StoreError AcquireArguments :=
  if strip a.sessionId = "" then .error (.valueError "session_id is required")
  else if strip a.owner = "" then .error (.valueError "owner is required")
  else if strip a.requestId = "" then .error (.valueError "request_id is required")
  else match leaseExpiry a.now a.ttlS with
    | .ok expires => .ok ⟨strip a.sessionId, strip a.owner, strip a.requestId, a.now, expires⟩
    | .error e => .error e

def currentLease (db : SessionDb) (sid : String) (now : DateTime) : Option TurnLeaseRow :=
  db.turnLeases.find? fun r =>
    r.sessionId = sid ∧ r.releasedAt = none ∧ toIsoUtc now < toIsoUtc r.expiresAt

def presentedFence (sid owner : String) (fenceToken : ℤ) (r : TurnLeaseRow) : Bool :=
  r.sessionId = sid ∧ r.owner = owner ∧ r.fenceToken = fenceToken ∧ r.releasedAt = none

def renewedRow (now expires : DateTime) (r : TurnLeaseRow) : TurnLeaseRow :=
  { r with renewedAt := now, expiresAt := expires }

def releasedRow (now : DateTime) (r : TurnLeaseRow) : TurnLeaseRow :=
  { r with releasedAt := some now, renewedAt := now }

def renewLocked (db : SessionDb) (sid owner : String) (fenceToken : ℤ) (now expires : DateTime) :
    SessionDb × Bool :=
  if sid = "" ∨ owner = "" then (db, false)
  else
    let leases :=
      updateWhere (presentedFence sid owner fenceToken) (renewedRow now expires) db.turnLeases
    ({ db with turnLeases := leases }, db.turnLeases.any (presentedFence sid owner fenceToken))

/-- `_get_locked`: the unreleased lease, expired or not. -/
def getLocked (db : SessionDb) (sid : String) : Option SessionTurnLease :=
  match lookup TurnLeaseRow.sessionId sid db.turnLeases with
  | some row => if row.releasedAt = none then some (.fromRow row) else none
  | none => none

/-- `COALESCE(MAX(fence_token), 0)` over the rows of a session. -/
def maxFence (db : SessionDb) (sid : String) : ℤ :=
  ((db.turnLeases.filter fun r => r.sessionId = sid).map TurnLeaseRow.fenceToken).max?.getD 0

/-- The insert of a new lease, `ON CONFLICT(session_id) DO UPDATE`. -/
def putLease (db : SessionDb) (row : TurnLeaseRow) : Except StoreError SessionDb :=
  if db.turnLeases.any fun r => r.sessionId = row.sessionId then
    let leases := updateWhere (fun r => r.sessionId = row.sessionId) (fun _ => row) db.turnLeases
    .ok { db with turnLeases := leases }
  else if db.hasSession row.sessionId then .ok { db with turnLeases := db.turnLeases ++ [row] }
  else .error .integrityError

/-- The transaction of `acquire`. -/
def acquireLocked (db : SessionDb) (a : AcquireArguments) :
    Except StoreError (SessionDb × SessionTurnLease) :=
  match currentLease db a.sid a.now with
  | some current =>
    let busy := StoreError.sessionTurnBusy a.sid (retryAfterSeconds current.expiresAt a.now)
      current.owner current.expiresAt
    if current.owner = a.leaseOwner ∧ current.requestId = a.request then
      let (db', renewed) := renewLocked db a.sid a.leaseOwner current.fenceToken a.now a.expires
      match renewed, getLocked db' a.sid with
      | true, some refreshed => .ok (db', refreshed)
      | _, _ => .error busy
    else .error busy
  | none =>
    match putLease db ⟨a.sid, a.leaseOwner, a.request, maxFence db a.sid + 1, a.now, a.now,
      a.expires, none⟩ with
    | .error e => .error e
    | .ok db' =>
      match getLocked db' a.sid with
      | some lease => .ok (db', lease)
      | none => .error (.runtimeError "failed to acquire session turn lease")

def acquire (db : SessionDb) (a : AcquireLease) :
    Except StoreError (SessionDb × SessionTurnLease) :=
  match acquireArguments a with
  | .ok args => acquireLocked db args
  | .error e => .error e

/-- Arguments of `renew`. -/
structure RenewLease where
  sessionId : String
  owner : String
  fenceToken : ℤ
  ttlS : ℤ := 60
  now : DateTime

def renew (db : SessionDb) (r : RenewLease) : Except StoreError (SessionDb × Bool) :=
  match leaseExpiry r.now r.ttlS with
  | .ok expires => .ok (renewLocked db (strip r.sessionId) (strip r.owner) r.fenceToken r.now expires)
  | .error e => .error e

/-- Arguments of `release`. -/
structure ReleaseLease where
  sessionId : String
  owner : String
  fenceToken : ℤ
  now : DateTime

def releaseLocked (db : SessionDb) (sid owner : String) (fenceToken : ℤ) (now : DateTime) :
    SessionDb × Bool :=
  let leases := updateWhere (presentedFence sid owner fenceToken) (releasedRow now) db.turnLeases
  ({ db with turnLeases := leases }, db.turnLeases.any (presentedFence sid owner fenceToken))

def release (db : SessionDb) (r : ReleaseLease) : Except StoreError (SessionDb × Bool) :=
  match leaseExpiry r.now 1 with
  | .ok _ => .ok (releaseLocked db (strip r.sessionId) (strip r.owner) r.fenceToken r.now)
  | .error e => .error e

def assertFence (db : SessionDb) (sessionId : String) (fenceToken : ℤ) : Except StoreError Unit :=
  let sid := strip sessionId
  match lookup TurnLeaseRow.sessionId sid db.turnLeases with
  | none => .error (.sessionTurnFence ("session turn lease is not active: " ++ sid))
  | some row =>
    if row.releasedAt ≠ none then
      .error (.sessionTurnFence ("session turn lease is not active: " ++ sid))
    else if row.fenceToken ≠ fenceToken then
      .error (.sessionTurnFence ("stale session turn fence for " ++ sid))
    else .ok ()

/-- The primary key of `session_turn_leases`. -/
def LeaseKey (leases : List TurnLeaseRow) : Prop := UniqueKey TurnLeaseRow.sessionId leases

def rowFence (row : TurnLeaseRow) : Fence ℤ := ⟨row.fenceToken, row.releasedAt.isSome⟩

def fenceOf (leases : List TurnLeaseRow) (sid : String) : Option (Fence ℤ) :=
  (lookup TurnLeaseRow.sessionId sid leases).map rowFence

theorem fenceOf_eq_held {leases : List TurnLeaseRow} {sid : String} {t : ℤ} :
    fenceOf leases sid = held t ↔ ∃ row, lookup TurnLeaseRow.sessionId sid leases = some row ∧
      row.fenceToken = t ∧ row.releasedAt = none := by
  simp [fenceOf, held, rowFence]

variable {db db' : SessionDb}

/-- `assertFence` succeeds exactly for the held token. -/
theorem assertFence_eq_ok {s : String} {t : ℤ} :
    assertFence db s t = .ok () ↔ fenceOf db.turnLeases (strip s) = held t := by
  rw [fenceOf_eq_held, assertFence]
  cases lookup TurnLeaseRow.sessionId (strip s) db.turnLeases with
  | none => simp
  | some row =>
    by_cases hrel : row.releasedAt = none <;> by_cases htok : row.fenceToken = t <;>
      simp [hrel, htok]

theorem assertFence_error {s : String} {t : ℤ} (h : fenceOf db.turnLeases (strip s) ≠ held t) :
    ∃ m, assertFence db s t = .error (.sessionTurnFence m) := by
  rw [ne_eq, fenceOf_eq_held] at h
  rw [assertFence]
  cases hl : lookup TurnLeaseRow.sessionId (strip s) db.turnLeases with
  | none => exact ⟨_, rfl⟩
  | some row =>
    by_cases hrel : row.releasedAt = none
    · have htok : row.fenceToken ≠ t := fun htok => h ⟨row, hl, htok, hrel⟩
      exact ⟨"stale session turn fence for " ++ strip s, by simp [hrel, htok]⟩
    · exact ⟨"session turn lease is not active: " ++ strip s, by simp [hrel]⟩

theorem presentedFence_false {leases : List TurnLeaseRow} (hkey : LeaseKey leases) {sid : String}
    (owner : String) {t : ℤ} (h : fenceOf leases sid ≠ held t) :
    ∀ r ∈ leases, presentedFence sid owner t r = false := by
  intro r hr
  by_contra hp
  simp only [presentedFence, Bool.not_eq_false, decide_eq_true_eq] at hp
  obtain ⟨hsid, -, htok, hrel⟩ := hp
  exact h (fenceOf_eq_held.mpr ⟨r, hkey.lookup_eq_some_iff.mpr ⟨hr, hsid⟩, htok, hrel⟩)

private theorem any_presentedFence {leases : List TurnLeaseRow} (hkey : LeaseKey leases)
    {sid : String} (owner : String) {t : ℤ} (h : fenceOf leases sid ≠ held t) :
    leases.any (presentedFence sid owner t) = false := by
  simpa using presentedFence_false hkey owner h

theorem renewLocked_not_held (hkey : LeaseKey db.turnLeases) {sid owner : String} {t : ℤ}
    {now expires : DateTime} (h : fenceOf db.turnLeases sid ≠ held t) :
    renewLocked db sid owner t now expires = (db, false) := by
  have hself := updateWhere_eq_self (renewedRow now expires) (presentedFence_false hkey owner h)
  simp [renewLocked, hself, any_presentedFence hkey owner h]

theorem releaseLocked_not_held (hkey : LeaseKey db.turnLeases) {sid owner : String} {t : ℤ}
    {now : DateTime} (h : fenceOf db.turnLeases sid ≠ held t) :
    releaseLocked db sid owner t now = (db, false) := by
  have hself := updateWhere_eq_self (releasedRow now) (presentedFence_false hkey owner h)
  simp [releaseLocked, hself, any_presentedFence hkey owner h]

private theorem fenceOf_updateWhere (leases : List TurnLeaseRow) (p : TurnLeaseRow → Bool)
    {f : TurnLeaseRow → TurnLeaseRow} (hf : ∀ r, p r = true → (f r).sessionId = r.sessionId)
    (sid : String) :
    fenceOf (updateWhere p f leases) sid =
      (lookup TurnLeaseRow.sessionId sid leases).map fun r => rowFence (if p r then f r else r) := by
  rw [fenceOf, lookup_updateWhere hf, Option.map_map]
  rfl

private theorem renewedRow_key (p : TurnLeaseRow → Bool) (now expires : DateTime) (r : TurnLeaseRow)
    (_ : p r = true) : (renewedRow now expires r).sessionId = r.sessionId := rfl

private theorem releasedRow_key (p : TurnLeaseRow → Bool) (now : DateTime) (r : TurnLeaseRow)
    (_ : p r = true) : (releasedRow now r).sessionId = r.sessionId := rfl

theorem fenceOf_renewLocked (db : SessionDb) (sid owner : String) (t : ℤ) (now expires : DateTime) :
    fenceOf (renewLocked db sid owner t now expires).1.turnLeases = fenceOf db.turnLeases := by
  funext s
  rw [renewLocked]
  split
  · rfl
  · rw [fenceOf_updateWhere _ _ (renewedRow_key _ now expires), fenceOf]
    congr 1
    funext r
    split <;> rfl

theorem leaseKey_renewLocked (hkey : LeaseKey db.turnLeases) (sid owner : String) (t : ℤ)
    (now expires : DateTime) : LeaseKey (renewLocked db sid owner t now expires).1.turnLeases := by
  rw [renewLocked]
  split
  · exact hkey
  · exact hkey.updateWhere (renewedRow_key _ now expires)

theorem leaseKey_releaseLocked (hkey : LeaseKey db.turnLeases) (sid owner : String) (t : ℤ)
    (now : DateTime) : LeaseKey (releaseLocked db sid owner t now).1.turnLeases :=
  hkey.updateWhere (releasedRow_key _ now)

theorem fenceStep_releaseLocked (hkey : LeaseKey db.turnLeases) (sid owner : String) (t : ℤ)
    (now : DateTime) : FenceStep (fenceOf db.turnLeases)
      (if (releaseLocked db sid owner t now).2 then [.released sid t] else [])
      (fenceOf (releaseLocked db sid owner t now).1.turnLeases) := by
  by_cases hany : db.turnLeases.any (presentedFence sid owner t) = true
  · obtain ⟨row, hrow, hp⟩ := List.any_eq_true.mp hany
    simp only [presentedFence, decide_eq_true_eq] at hp
    obtain ⟨hsid, howner, htok, hrel⟩ := hp
    have hlookup := hkey.lookup_eq_some_iff.mpr ⟨hrow, hsid⟩
    have hfence : fenceOf (releaseLocked db sid owner t now).1.turnLeases =
        Function.update (fenceOf db.turnLeases) sid (some ⟨t, true⟩) := by
      funext s
      simp only [releaseLocked, fenceOf_updateWhere _ _ (releasedRow_key _ now)]
      by_cases hs : s = sid
      · subst hs
        simp [hlookup, presentedFence, hsid, howner, htok, hrel, rowFence, releasedRow]
      · rw [Function.update_of_ne hs, fenceOf]
        cases hl : lookup TurnLeaseRow.sessionId s db.turnLeases with
        | none => rfl
        | some r =>
          have hne : ¬ r.sessionId = sid := fun h => hs ((lookup_some hl).2.symm.trans h)
          simp [presentedFence, hne]
    rw [hfence, releaseLocked, if_pos hany]
    exact .released (fenceOf_eq_held.mpr ⟨row, hlookup, htok, hrel⟩)
  · have hnone : ∀ r ∈ db.turnLeases, presentedFence sid owner t r = false := by simpa using hany
    rw [releaseLocked, if_neg hany]
    simp only [updateWhere_eq_self (releasedRow now) hnone]
    exact .silent

theorem currentLease_eq_some (hkey : LeaseKey db.turnLeases) {sid : String} {now : DateTime}
    {row : TurnLeaseRow} : currentLease db sid now = some row ↔
      row ∈ db.turnLeases ∧ row.sessionId = sid ∧ row.releasedAt = none ∧ now < row.expiresAt := by
  constructor
  · intro h
    have hp := List.find?_some h
    simp only [decide_eq_true_eq, toIsoUtc_lt_iff] at hp
    exact ⟨List.mem_of_find?_eq_some h, hp⟩
  · rintro ⟨hrow, hsid, hrel, hexp⟩
    cases hc : currentLease db sid now with
    | none =>
      have hnot := List.find?_eq_none.mp hc row hrow
      exact absurd (decide_eq_true ⟨hsid, hrel, toIsoUtc_lt_iff.mpr hexp⟩) hnot
    | some other =>
      have hp := List.find?_some hc
      simp only [decide_eq_true_eq] at hp
      rw [hkey.eq_of_key_eq (List.mem_of_find?_eq_some hc) hrow (hp.1.trans hsid.symm)]

theorem getLocked_eq_some {sid : String} {lease : SessionTurnLease}
    (h : getLocked db sid = some lease) :
    lease.sessionId = sid ∧ fenceOf db.turnLeases sid = held lease.fenceToken := by
  rw [getLocked] at h
  cases hl : lookup TurnLeaseRow.sessionId sid db.turnLeases with
  | none => simp [hl] at h
  | some row =>
    by_cases hrel : row.releasedAt = none
    · obtain rfl : SessionTurnLease.fromRow row = lease := by simpa [hl, hrel] using h
      exact ⟨(lookup_some hl).2, fenceOf_eq_held.mpr ⟨row, hl, rfl, hrel⟩⟩
    · simp [hl, hrel] at h

theorem fence_le_maxFence {sid : String} {f : Fence ℤ} (h : fenceOf db.turnLeases sid = some f) :
    f.token ≤ maxFence db sid := by
  obtain ⟨row, hl, rfl⟩ := Option.map_eq_some_iff.mp h
  obtain ⟨hrow, hsid⟩ := lookup_some hl
  have hmem : row.fenceToken ∈
      (db.turnLeases.filter fun r => r.sessionId = sid).map TurnLeaseRow.fenceToken :=
    List.mem_map.mpr ⟨row, by simp [hrow, hsid], rfl⟩
  rw [maxFence, List.max?_eq_some_max (List.ne_nil_of_mem hmem)]
  exact List.le_max_of_mem hmem

theorem putLease_ok (hkey : LeaseKey db.turnLeases) {row : TurnLeaseRow}
    (h : putLease db row = .ok db') : LeaseKey db'.turnLeases ∧
      fenceOf db'.turnLeases = Function.update (fenceOf db.turnLeases) row.sessionId
        (some (rowFence row)) := by
  suffices hleases : LeaseKey db'.turnLeases ∧ row ∈ db'.turnLeases ∧
      ∀ s, s ≠ row.sessionId → lookup TurnLeaseRow.sessionId s db'.turnLeases =
        lookup TurnLeaseRow.sessionId s db.turnLeases by
    obtain ⟨hkey', hmem, hother⟩ := hleases
    refine ⟨hkey', ?_⟩
    funext s
    by_cases hs : s = row.sessionId
    · subst hs
      rw [Function.update_self, fenceOf, hkey'.lookup_eq_some_iff.mpr ⟨hmem, rfl⟩]
      rfl
    · rw [Function.update_of_ne hs, fenceOf, hother s hs, fenceOf]
  rw [putLease] at h
  split at h
  · next hany =>
    obtain rfl := Except.ok.inj h
    have hrow : ∀ r : TurnLeaseRow, decide (r.sessionId = row.sessionId) = true →
        row.sessionId = r.sessionId := fun r h => (of_decide_eq_true h).symm
    obtain ⟨old, hold, hsid⟩ := List.any_eq_true.mp hany
    refine ⟨hkey.updateWhere hrow, mem_updateWhere.mpr ⟨old, hold, by rw [if_pos hsid]⟩, ?_⟩
    intro s hs
    rw [lookup_updateWhere hrow]
    cases hl : lookup TurnLeaseRow.sessionId s db.turnLeases with
    | none => rfl
    | some r =>
      have hne : ¬ r.sessionId = row.sessionId := fun h => hs ((lookup_some hl).2.symm.trans h)
      simp [hne]
  · next hany =>
    split at h
    · obtain rfl := Except.ok.inj h
      have hfresh : ∀ r ∈ db.turnLeases, r.sessionId ≠ row.sessionId := by simpa using hany
      refine ⟨hkey.append_singleton hfresh, by simp, ?_⟩
      intro s hs
      simp [lookup, List.find?_append, Ne.symm hs]
    · cases h

/-- The caller of `acquire` already holds the current lease, under the same request. -/
def IsRenewal (db : SessionDb) (a : AcquireArguments) : Prop :=
  ∃ row ∈ currentLease db a.sid a.now, row.owner = a.leaseOwner ∧ row.requestId = a.request

/-- What a successful `acquire` does to the fences. -/
structure Acquired (db db' : SessionDb) (a : AcquireArguments) (lease : SessionTurnLease) : Prop where
  sessionId : lease.sessionId = a.sid
  leaseKey : LeaseKey db'.turnLeases
  fences : IsRenewal db a ∧ fenceOf db.turnLeases a.sid = held lease.fenceToken ∧
      fenceOf db'.turnLeases = fenceOf db.turnLeases ∨
    currentLease db a.sid a.now = none ∧ (∀ f ∈ fenceOf db.turnLeases a.sid, f.token < lease.fenceToken) ∧
      fenceOf db'.turnLeases =
        Function.update (fenceOf db.turnLeases) a.sid (held lease.fenceToken)

theorem acquireLocked_ok (hkey : LeaseKey db.turnLeases) {a : AcquireArguments}
    {lease : SessionTurnLease} (h : acquireLocked db a = .ok (db', lease)) :
    Acquired db db' a lease := by
  rw [acquireLocked] at h
  cases hc : currentLease db a.sid a.now with
  | some row =>
    simp only [hc] at h
    split at h
    · next hsame =>
      split at h
      · next refreshed _ hget =>
        obtain ⟨rfl, rfl⟩ := Prod.mk.inj (Except.ok.inj h)
        obtain ⟨hsid, hheld⟩ := getLocked_eq_some hget
        rw [fenceOf_renewLocked] at hheld
        exact ⟨hsid, leaseKey_renewLocked hkey _ _ _ _ _,
          .inl ⟨⟨row, hc, hsame⟩, hheld, fenceOf_renewLocked _ _ _ _ _ _⟩⟩
      · cases h
    · cases h
  | none =>
    simp only [hc] at h
    split at h
    · cases h
    · next db₁ hput =>
      obtain ⟨hkey', hfence⟩ := putLease_ok hkey hput
      split at h
      · next lease hget =>
        obtain ⟨rfl, rfl⟩ := Prod.mk.inj (Except.ok.inj h)
        obtain ⟨hsid, hheld⟩ := getLocked_eq_some hget
        have htoken : maxFence db a.sid + 1 = lease.fenceToken := by
          simpa [hfence, held, rowFence] using hheld
        refine ⟨hsid, hkey', .inr ⟨hc, fun f hf => ?_, ?_⟩⟩
        · have := fence_le_maxFence hf
          omega
        · rw [hfence, ← htoken]
          rfl
      · cases h

/-- A current lease of another client keeps every `acquire` out. -/
theorem acquireLocked_busy (hkey : LeaseKey db.turnLeases) {a : AcquireArguments}
    {row : TurnLeaseRow} (hrow : row ∈ db.turnLeases) (hsid : row.sessionId = a.sid)
    (hrel : row.releasedAt = none) (hexp : a.now < row.expiresAt)
    (hother : (row.owner, row.requestId) ≠ (a.leaseOwner, a.request)) :
    acquireLocked db a = .error (.sessionTurnBusy a.sid (retryAfterSeconds row.expiresAt a.now)
      row.owner row.expiresAt) := by
  have hc := (currentLease_eq_some hkey).mpr ⟨hrow, hsid, hrel, hexp⟩
  have hne : ¬(row.owner = a.leaseOwner ∧ row.requestId = a.request) := by
    simpa [Prod.ext_iff] using hother
  simp [acquireLocked, hc, hne]

theorem acquireArguments_ok {a : AcquireLease} {args : AcquireArguments}
    (h : acquireArguments a = .ok args) :
    args.sid = strip a.sessionId ∧ args.leaseOwner = strip a.owner ∧
      args.request = strip a.requestId ∧ args.now = a.now := by
  rw [acquireArguments] at h
  split at h
  · cases h
  split at h
  · cases h
  split at h
  · cases h
  split at h
  · obtain rfl := Except.ok.inj h
    exact ⟨rfl, rfl, rfl, rfl⟩
  · cases h

inductive LeaseCall where
  | acquire (a : AcquireLease)
  | renew (r : RenewLease)
  | release (r : ReleaseLease)
  | assertFence (sessionId : String) (fenceToken : ℤ)

structure LeaseRun where
  db : SessionDb
  history : List (LeaseEvent String ℤ) := []

namespace LeaseRun

def acquire (σ : LeaseRun) (a : AcquireLease) : LeaseRun :=
  match SessionTurnLeases.acquire σ.db a with
  | .ok (db, lease) => ⟨db, σ.history ++ [.granted lease.sessionId lease.fenceToken]⟩
  | .error _ => σ

def renew (σ : LeaseRun) (r : RenewLease) : LeaseRun :=
  { σ with db := committed σ.db (SessionTurnLeases.renew σ.db r) }

def release (σ : LeaseRun) (r : ReleaseLease) : LeaseRun :=
  match SessionTurnLeases.release σ.db r with
  | .ok (db, updated) =>
    ⟨db, σ.history ++ if updated then [.released (strip r.sessionId) r.fenceToken] else []⟩
  | .error _ => σ

def step (σ : LeaseRun) : LeaseCall → LeaseRun
  | .acquire a => σ.acquire a
  | .renew r => σ.renew r
  | .release r => σ.release r
  | .assertFence _ _ => σ

/-- What one lease call does: the table keeps its key, and the fences take one step whose
events the history records. -/
def Stepped (σ σ' : LeaseRun) : Prop :=
  LeaseKey σ'.db.turnLeases ∧ ∃ events, σ'.history = σ.history ++ events ∧
    FenceStep (fenceOf σ.db.turnLeases) events (fenceOf σ'.db.turnLeases)

private theorem stepped_self {σ : LeaseRun} (hkey : LeaseKey σ.db.turnLeases) : Stepped σ σ :=
  ⟨hkey, [], by simp, .silent⟩

theorem stepped_acquire {σ : LeaseRun} (hkey : LeaseKey σ.db.turnLeases) (a : AcquireLease) :
    Stepped σ (σ.acquire a) := by
  rw [LeaseRun.acquire]
  split
  · next db lease hok =>
    rw [SessionTurnLeases.acquire] at hok
    split at hok
    · obtain ⟨hsid, hkey', hfences⟩ := acquireLocked_ok hkey hok
      refine ⟨hkey', _, rfl, ?_⟩
      rw [hsid]
      rcases hfences with ⟨-, hheld, heq⟩ | ⟨-, hfresh, heq⟩
      · rw [heq]
        exact .extended hheld
      · rw [heq]
        exact .granted hfresh
    · cases hok
  · exact stepped_self hkey

theorem db_renew (σ : LeaseRun) (r : RenewLease) :
    (∃ expires, (σ.renew r).db =
      (renewLocked σ.db (strip r.sessionId) (strip r.owner) r.fenceToken r.now expires).1) ∨ (σ.renew r).db = σ.db := by
  rw [LeaseRun.renew, SessionTurnLeases.renew]
  cases leaseExpiry r.now r.ttlS with
  | error e => exact .inr rfl
  | ok expires =>
    refine .inl ⟨expires, ?_⟩
    dsimp only
    generalize renewLocked σ.db (strip r.sessionId) (strip r.owner) r.fenceToken r.now expires = written
    rfl

theorem fenceOf_renew (σ : LeaseRun) (r : RenewLease) :
    fenceOf (σ.renew r).db.turnLeases = fenceOf σ.db.turnLeases := by
  obtain ⟨expires, hdb⟩ | hdb := db_renew σ r
  · rw [hdb, fenceOf_renewLocked]
  · rw [hdb]

theorem stepped_renew {σ : LeaseRun} (hkey : LeaseKey σ.db.turnLeases) (r : RenewLease) :
    Stepped σ (σ.renew r) := by
  have hkey' : LeaseKey (σ.renew r).db.turnLeases := by
    obtain ⟨expires, hdb⟩ | hdb := db_renew σ r
    · rw [hdb]
      exact leaseKey_renewLocked hkey _ _ _ _ expires
    · rwa [hdb]
  refine ⟨hkey', [], by simp [LeaseRun.renew], ?_⟩
  rw [fenceOf_renew]
  exact .silent

theorem stepped_release {σ : LeaseRun} (hkey : LeaseKey σ.db.turnLeases) (r : ReleaseLease) :
    Stepped σ (σ.release r) := by
  rw [LeaseRun.release, SessionTurnLeases.release]
  cases leaseExpiry r.now 1 with
  | error e => exact stepped_self hkey
  | ok _ => exact ⟨leaseKey_releaseLocked hkey _ _ _ _, _, rfl, fenceStep_releaseLocked hkey _ _ _ _⟩

theorem stepped {σ : LeaseRun} (hkey : LeaseKey σ.db.turnLeases) (c : LeaseCall) :
    Stepped σ (σ.step c) := by
  cases c with
  | acquire a => exact stepped_acquire hkey a
  | renew r => exact stepped_renew hkey r
  | release r => exact stepped_release hkey r
  | assertFence _ _ => exact stepped_self hkey

/-- The lease table has one row per session, and its fences explain the history. -/
structure Valid (σ : LeaseRun) : Prop where
  leaseKey : LeaseKey σ.db.turnLeases
  explains : Explains (fenceOf σ.db.turnLeases) σ.history

theorem Valid.step {σ : LeaseRun} (h : σ.Valid) (c : LeaseCall) : (σ.step c).Valid := by
  obtain ⟨hkey, events, hhistory, hstep⟩ := stepped h.leaseKey c
  refine ⟨hkey, ?_⟩
  rw [hhistory]
  exact h.explains.step hstep

theorem Valid.run {σ : LeaseRun} (h : σ.Valid) (cs : List LeaseCall) :
    (TransitionRuns.run LeaseRun.step σ cs).Valid :=
  run_invariant (fun _ c h => h.step c) h cs

end LeaseRun

/-- Over every run of lease calls a grant that is not a renewal has a greater token than every grant before it, a
current lease keeps every other client out, and a token that was superseded or released renews nothing, releases
nothing and fails every check. -/
theorem turnLease_exclusion_and_fencing (db : SessionDb)
    (hkey : UniqueKey TurnLeaseRow.sessionId db.turnLeases) (calls : List LeaseCall) :
    let σ := run LeaseRun.step ⟨db, []⟩ calls
    (∀ a args db' lease, acquireArguments a = .ok args → acquire σ.db a = .ok (db', lease) →
      ¬ IsRenewal σ.db args →
      ∀ t, .granted lease.sessionId t ∈ σ.history → t < lease.fenceToken) ∧
    (∀ a args row, acquireArguments a = .ok args → row ∈ σ.db.turnLeases →
      row.sessionId = strip a.sessionId → row.releasedAt = none → a.now < row.expiresAt →
      (row.owner, row.requestId) ≠ (strip a.owner, strip a.requestId) →
      acquire σ.db a = .error (.sessionTurnBusy row.sessionId
        (retryAfterSeconds row.expiresAt a.now) row.owner row.expiresAt)) ∧
    (∀ sid t, Ended σ.history (strip sid) t →
      (∀ owner ttlS now, renew σ.db ⟨sid, owner, t, ttlS, now⟩ =
        (leaseExpiry now ttlS).map fun _ => (σ.db, false)) ∧
      (∀ owner now, release σ.db ⟨sid, owner, t, now⟩ =
        (leaseExpiry now 1).map fun _ => (σ.db, false)) ∧
      ∃ m, assertFence σ.db sid t = .error (.sessionTurnFence m)) := by
  have hstart : (⟨db, []⟩ : LeaseRun).Valid := ⟨hkey, .nil _⟩
  have hvalid := hstart.run calls
  generalize run LeaseRun.step ⟨db, []⟩ calls = σ at hvalid
  refine ⟨?_, ?_, ?_⟩
  · intro a args db' lease ha hok hnew t hmem
    rw [acquire, ha] at hok
    obtain ⟨hsid, -, hfences⟩ := acquireLocked_ok hvalid.leaseKey hok
    rcases hfences with ⟨hrenewal, -⟩ | ⟨-, hfresh, -⟩
    · exact absurd hrenewal hnew
    · exact hvalid.explains.lt_of_fresh hfresh (hsid ▸ hmem)
  · intro a args row ha hrow hsid hrel hexp hother
    obtain ⟨hs, ho, hr, hn⟩ := acquireArguments_ok ha
    rw [acquire, ha, ← hn, hsid, ← hs]
    exact acquireLocked_busy hvalid.leaseKey hrow (hsid.trans hs.symm) hrel (hn ▸ hexp)
      (by rw [ho, hr]; exact hother)
  · intro sid t hend
    have hne := hvalid.explains.ne_held hend
    refine ⟨?_, ?_, assertFence_error hne⟩
    · intro owner ttlS now
      rw [renew]
      cases leaseExpiry now ttlS with
      | error e => rfl
      | ok expires => simp [renewLocked_not_held hvalid.leaseKey hne, Except.map]
    · intro owner now
      rw [release]
      cases leaseExpiry now 1 with
      | error e => rfl
      | ok expires => simp [releaseLocked_not_held hvalid.leaseKey hne, Except.map]

/-- Two clients take turns: after the second grant the first token fails its check. -/
theorem turnLease_fencing_two_clients :
    let now : DateTime := ⟨63919965600000000, by decide⟩
    let db := committed {} (insertSession {} { sessionId := some "s", freshId := "", now })
    let calls := [.acquire { sessionId := "s", owner := "a", requestId := "r", now },
      .release { sessionId := "s", owner := "a", fenceToken := 1, now },
      .acquire { sessionId := "s", owner := "b", requestId := "r", now }]
    let σ := run LeaseRun.step ⟨db, []⟩ calls
    UniqueKey TurnLeaseRow.sessionId db.turnLeases ∧
    σ.history = [.granted "s" 1, .released "s" 1, .granted "s" 2] ∧
    ∃ m, assertFence σ.db "s" 1 = .error (.sessionTurnFence m) := by
  intro now db calls σ
  have hkey : UniqueKey TurnLeaseRow.sessionId db.turnLeases := .nil
  have hhistory : σ.history = [.granted "s" 1, .released "s" 1, .granted "s" 2] := by
    decide +kernel
  have hended : Ended σ.history (strip "s") 1 := by
    rw [hhistory, show strip "s" = "s" by decide +kernel]
    exact .inr (by decide)
  exact ⟨hkey, hhistory, ((turnLease_exclusion_and_fencing db hkey calls).2.2 "s" 1 hended).2.2⟩

end OpenMinion.SessionTurnLeases
