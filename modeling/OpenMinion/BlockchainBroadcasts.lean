import OpenMinion.BlockchainOperations
import OpenMinion.InterleavedThreads

/-!
# A preparation is broadcast at most once

In every interleaving of submissions and status calls, with any answers and crashes, the transaction goes out from the
one call that has linked the operation record.
-/
namespace OpenMinion.BlockchainOperations
open EarlyPrograms InterleavedThreads StatementPrograms TransitionRuns

section
variable {World : Type}

structure Caller (World : Type) where
  program : Prog World (Except CallResult CallResult)
  trace : List (Stmt × Reply World)

def Caller.idle : Caller World := ⟨.done (.error (.error "")), []⟩

/-- The operation record, the raw transactions that were sent, and the worlds of all statements, which no program
reads. The entry of the operations directory itself is durable from the start. -/
structure Shared (World : Type) where
  stored : Option OperationRecord := none
  durable : Bool := false
  broadcasts : List String := []
  history : List World := []

def Stmt.broadcasts : Stmt → List String
  | .rpc (.sendRawTransaction raw) => [raw]
  | _ => []

def Stmt.syncs (fault : StorageFault) (stored : Option OperationRecord) : Stmt → Bool
  | .syncDirectory => fault = .none ∧ stored.isSome
  | .replace _ expected => fault = .none ∧ stored = some expected
  | _ => false

def Shared.apply (s : Shared World) (env : Env World) (c : Stmt) : Shared World where
  stored := c.store env.fault s.stored
  durable := s.durable || c.syncs env.fault s.stored
  broadcasts := s.broadcasts ++ c.broadcasts
  history := s.history ++ [env.world]

def Shared.reply (s : Shared World) (env : Env World) : Reply World := ⟨s.stored, env, s.history.length⟩

variable (lib : BlockchainLibrary) (node : Node World)

def callers : Threads (Shared World) (Caller World) Op (Env World) where
  isIdle l := match l.program with
    | .done _ => true
    | .step _ _ => false
  begin s op := (s, ⟨program lib node op, []⟩)
  next s l env := match l.program with
    | .done _ => (s, l)
    | .step c next => (s.apply env c, ⟨next (s.reply env), (c, s.reply env) :: l.trace⟩)

inductive Event (Thread : Type) (World : Type) where
  | act (action : Action Thread Op (Env World))
  /-- All processes end; an entry that is not durable may be lost. -/
  | powerLoss (isKept : Bool)

variable {Thread : Type} [DecidableEq Thread]

def step (σ : System Thread (Shared World) (Caller World)) : Event Thread World → System Thread (Shared World) (Caller World)
  | .act action => (callers lib node).step σ action
  | .powerLoss isKept =>
    ⟨{ σ.shared with stored := if σ.shared.durable || isKept then σ.shared.stored else none }, fun _ => .idle⟩

omit [DecidableEq Thread] in
def initial (Thread World : Type) : System Thread (Shared World) (Caller World) := ⟨{}, fun _ => .idle⟩

def ClaimedFirst (σ : System Thread (Shared World) (Caller World)) : Event Thread World → Prop
  | .act (.advance t _) => match (σ.threads t).program with
    | .step (.rpc (.sendRawTransaction raw)) _ =>
      σ.shared.durable = true ∧ ∃ operation, σ.shared.stored = some operation ∧ operation.transactionHash = lib.keccak raw
    | _ => True
  | _ => True

/-- The record that the call has linked, whether it was written through, and whether the
transaction was sent. -/
structure Claim where
  linked : Option OperationRecord := none
  synced : Bool := false
  sent : Bool := false

def Claim.after (g : Claim) (c : Stmt) (r : Reply World) : Claim :=
  match c with
  | .link operation => match r.linked with
    | .ok true => { g with linked := some operation }
    | _ => g
  | .syncDirectory => match r.synced with
    | .ok () => { g with synced := true }
    | .error _ => g
  | .rpc (.sendRawTransaction _) => { g with sent := true }
  | _ => g

def claimOf : List (Stmt × Reply World) → Claim
  | [] => {}
  | (c, r) :: trace => (claimOf trace).after c r

/-- A call links first, then writes the entry through, and then sends what it has linked, once. -/
def permits (lib : BlockchainLibrary) (g : Claim) : Stmt → Prop
  | .link _ => g = {}
  | .syncDirectory => g.linked.isSome
  | .rpc (.sendRawTransaction raw) => g.synced = true ∧ g.sent = false ∧
      ∃ operation, g.linked = some operation ∧ operation.transactionHash = lib.keccak raw
  | .replace operation expected => operation.transactionHash = expected.transactionHash
  | _ => True

def Stmt.isQuiet : Stmt → Bool
  | .link _ | .syncDirectory | .replace .. | .rpc (.sendRawTransaction _) => false
  | _ => true

abbrev Claims {α : Type} (lib : BlockchainLibrary) (Q : Claim → α → Prop) (g : Claim) (m : CallM World α) : Prop :=
  Follows (permits lib) Claim.after Q g m

/-- A program that leaves the claim alone. -/
abbrev Leaves {α : Type} (lib : BlockchainLibrary) (m : CallM World α) : Prop := ∀ g, Claims lib (fun g' _ => g' = g) g m

end

section Programs

variable {World : Type} {lib : BlockchainLibrary} {node : Node World} {α β : Type}

theorem permits_quiet {c : Stmt} (h : c.isQuiet = true) (g : Claim) : permits lib g c := by
  cases c with
  | rpc call => cases call <;> trivial
  | link | syncDirectory | replace => cases h
  | loadOperation | loadPreparation | loadResolution | loadAccount => trivial

theorem after_quiet {c : Stmt} (h : c.isQuiet = true) (g : Claim) (r : Reply World) : g.after c r = g := by
  cases c with
  | rpc call => cases call <;> first | rfl | cases h
  | link | syncDirectory | replace => cases h
  | loadOperation | loadPreparation | loadResolution | loadAccount => rfl

theorem leaves_pure (a : α) : Leaves lib (pure a : CallM World α) := fun _ => follows_pure rfl

theorem leaves_throw (e : CallResult) : Leaves lib (throw e : CallM World α) := fun _ => follows_throw e

theorem leaves_endIf (p : Prop) [Decidable p] (result : CallResult) : Leaves lib (endIf p result : CallM World Unit) := by
  rw [endIf]
  split
  · exact leaves_throw _
  · exact leaves_pure _

theorem leaves_ask {c : Stmt} {f : Reply World → Except CallResult α} (h : c.isQuiet = true) : Leaves lib (ask c f) :=
  fun g => follows_ask (permits_quiet h g) fun r _ _ => after_quiet h g r

theorem leaves_replace {operation expected : OperationRecord} {f : Reply World → Except CallResult α}
    (h : operation.transactionHash = expected.transactionHash) : Leaves lib (ask (.replace operation expected) f) :=
  fun _ => follows_ask h fun _ _ _ => rfl

theorem Leaves.bind {m : CallM World α} {f : α → CallM World β} (hm : Leaves lib m) (hf : ∀ a, Leaves lib (f a)) :
    Leaves lib (m >>= f) := fun g => (hm g).then fun a => hf a g

theorem leaves_rpcCall {call : RpcCall} {decode : Answer → Option α} {failure : String → CallResult}
    (h : (Stmt.rpc call).isQuiet = true) : Leaves lib (rpcCall node call decode failure) := leaves_ask h

theorem leaves_recheckPinnedBlock (pinned : ℕ × String) : Leaves lib (recheckPinnedBlock node pinned) := leaves_ask rfl

theorem leaves_loadValidatedSendResolution (request : ResolvedPreparedTransaction) :
    Leaves lib (loadValidatedSendResolution lib node request) := by
  refine (leaves_ask (by rfl)).bind fun stored => (leaves_endIf _ _).bind fun _ => (leaves_ask (by rfl)).bind fun record =>
    (leaves_rpcCall (by rfl)).bind fun pinned => ?_
  split
  · exact leaves_throw _
  · exact (leaves_endIf _ _).bind fun _ => leaves_pure _

theorem leaves_loadValidatedSendSigner (request : ResolvedPreparedTransaction) (config : BlockchainConfig) :
    Leaves lib (loadValidatedSendSigner request config : CallM World Account) := by
  refine (leaves_ask (by rfl)).bind ?_
  rintro (_ | account)
  · exact leaves_throw _
  · exact (leaves_endIf _ _).bind fun _ => (leaves_endIf _ _).bind fun _ => leaves_pure _

theorem leaves_transactionFeeIsStale (transaction : Transaction) (baseFee : Quantity) :
    Leaves lib (transactionFeeIsStale node transaction baseFee) := by
  unfold transactionFeeIsStale
  split
  · cases baseFee with
    | absent => exact leaves_pure _
    | malformed => exact leaves_throw _
    | value baseFee => exact (leaves_rpcCall (by rfl)).bind fun _ => leaves_pure _
  · exact (leaves_rpcCall (by rfl)).bind fun _ => leaves_pure _

theorem leaves_checkLiveSendState (request : ResolvedPreparedTransaction) (pinned : ℕ × String) (sender : String) :
    Leaves lib (checkLiveSendState node request pinned sender) := by
  refine (leaves_rpcCall (by rfl)).bind fun balance => (leaves_rpcCall (by rfl)).bind fun nonce =>
    (leaves_endIf _ _).bind fun _ => (leaves_endIf _ _).bind fun _ => (leaves_rpcCall (by rfl)).bind fun feeBlock =>
    (leaves_endIf _ _).bind fun _ => (leaves_transactionFeeIsStale _ _).bind fun stale => (leaves_endIf _ _).bind fun _ =>
    (leaves_rpcCall (by rfl)).bind fun simulated => (leaves_endIf _ _).bind fun _ =>
    (leaves_recheckPinnedBlock _).bind ?_
  rintro (code | _)
  · exact leaves_throw _
  · exact leaves_pure _

theorem claims_claimOperation (operation : OperationRecord) :
    Claims lib (fun g _ => g = ⟨some operation, true, false⟩) {} (claimOperation lib operation : CallM World Unit) := by
  refine (leaves_endIf _ _ {}).then fun _ => ?_
  have hlink : Claims lib (fun g linked => linked = .ok true → g = ⟨some operation, false, false⟩) {}
      (look (.link operation) (·.linked) : CallM World (Except Reason Bool)) := by
    refine follows_ask rfl ?_
    rintro r linked hlinked hok
    cases hlinked
    dsimp only at hok
    rw [Claim.after, hok]
  refine hlink.bind ?_
  rintro g (reason | _ | _) hg
  · exact follows_throw _
  · exact follows_throw _
  · obtain rfl := hg rfl
    have hsync : Claims lib (fun g synced => synced = .ok () → g = ⟨some operation, true, false⟩)
        ⟨some operation, false, false⟩ (look .syncDirectory (·.synced) : CallM World (Except Reason Unit)) := by
      refine follows_ask rfl ?_
      rintro r synced hsynced hok
      cases hsynced
      dsimp only at hok
      rw [Claim.after, hok]
    refine hsync.bind ?_
    rintro g (reason | _) hg
    · exact follows_throw _
    · exact follows_pure (hg rfl)

theorem leaves_replaceSubmittedOperation {operation expected : OperationRecord}
    (h : operation.transactionHash = expected.transactionHash) :
    Leaves lib (replaceSubmittedOperation lib operation expected : CallM World Unit) := by
  refine (leaves_endIf _ _).bind fun _ => (leaves_replace h).bind ?_
  rintro (reason | _ | _)
  · exact leaves_throw _
  · refine (leaves_ask (by rfl)).bind ?_
    rintro (reason | current)
    · exact leaves_throw _
    · exact leaves_throw _
  · exact leaves_pure _

theorem claims_broadcastClaimedOperation {operation : OperationRecord} {raw : String}
    (h : operation.transactionHash = lib.keccak raw) :
    Claims lib (fun _ _ => True) ⟨some operation, true, false⟩ (broadcastClaimedOperation lib node operation raw) := by
  have hsend : Claims lib (fun _ _ => True) ⟨some operation, true, false⟩
      (look (.rpc (.sendRawTransaction raw)) (answered node (.sendRawTransaction raw) Answer.toData)) :=
    follows_ask ⟨rfl, rfl, operation, rfl, h⟩ fun _ _ _ => trivial
  refine hsend.bind ?_
  rintro g (code | submittedHash) -
  · exact follows_pure trivial
  · dsimp only
    split
    · exact (leaves_replaceSubmittedOperation (by rfl) g).then fun _ => follows_pure trivial
    · exact (leaves_replaceSubmittedOperation (by rfl) g).then fun _ => follows_pure trivial

theorem claims_sendResolvedTransaction (request : ResolvedPreparedTransaction) (config : BlockchainConfig) :
    Claims lib (fun _ _ => True) {} (sendResolvedTransaction lib node request config) := by
  refine (leaves_loadValidatedSendResolution request {}).then fun pinned =>
    (leaves_loadValidatedSendSigner request config {}).then fun account =>
    (leaves_checkLiveSendState request pinned account.address {}).then fun _ => ?_
  refine (claims_claimOperation _).bind ?_
  rintro g - rfl
  exact claims_broadcastClaimedOperation rfl

theorem leaves_persistOperation {operation expected : OperationRecord}
    (h : operation.transactionHash = expected.transactionHash) :
    Leaves lib (persistOperation lib operation expected : CallM World CallResult) := by
  refine (leaves_endIf _ _).bind fun _ => (leaves_replace h).bind ?_
  rintro (reason | _ | _)
  · exact leaves_throw _
  · refine (leaves_ask (by rfl)).bind ?_
    rintro (reason | current)
    · exact leaves_throw _
    · exact leaves_pure _
  · exact leaves_pure _

theorem leaves_loadOperationStatusFacts : Leaves lib (loadOperationStatusFacts lib node) := by
  refine (leaves_ask (by rfl)).bind fun operation => (leaves_ask (by rfl)).bind fun preparation =>
    (leaves_ask (by rfl)).bind fun record => (leaves_rpcCall (by rfl)).bind fun _ =>
    (leaves_rpcCall (by rfl)).bind fun pinned => (leaves_recheckPinnedBlock _).bind ?_
  rintro (code | _)
  · exact leaves_throw _
  · exact (leaves_endIf _ _).bind fun _ => (leaves_endIf _ _).bind fun _ => leaves_pure _

theorem leaves_observeOperationReceipt (operation : OperationRecord) :
    Leaves lib (observeOperationReceipt node operation) := by
  refine (leaves_rpcCall (by rfl)).bind ?_
  rintro (_ | receipt)
  · exact leaves_pure _
  · refine (leaves_endIf _ _).bind fun _ => ?_
    split
    · exact (leaves_endIf _ _).bind fun _ => (leaves_rpcCall (by rfl)).bind fun _ => leaves_pure _
    · exact leaves_throw _

theorem obeys_postconditionResult (record : JsonValues.Json) (number : ℕ) (postcondition : EqualityPostcondition) (g : Claim) :
    Program.Obeys (permits lib) Claim.after (fun g' _ => g' = g) g (postconditionResult lib node record number postcondition) := by
  rw [postconditionResult]
  dsimp only
  split
  · exact Program.obeys_pure rfl
  · split
    · exact Program.obeys_pure rfl
    · exact Program.obeys_perform trivial fun _ => rfl

theorem claims_terminalOutcome (operation : OperationRecord) (record : JsonValues.Json) (g : Claim) :
    Claims lib (fun g' r => g' = g ∧ r.1.transactionHash = operation.transactionHash) g
      (terminalOutcome lib node operation record) := by
  unfold terminalOutcome
  split
  · exact follows_pure ⟨rfl, rfl⟩
  · have hresults : Program.Obeys (permits lib) Claim.after (fun g' _ => g' = g) g
        (Program.mapList (postconditionResult lib node record (operation.receiptBlockNumber.getD 0)) operation.postconditions) := by
      refine Program.obeys_mapList (K := fun g' => g' = g) ?_ rfl
      rintro postcondition - g' rfl
      exact obeys_postconditionResult record _ postcondition g'
    refine (follows_lift hresults).then fun results => ?_
    dsimp only
    split
    · exact follows_pure ⟨rfl, rfl⟩
    · exact follows_pure ⟨rfl, rfl⟩

theorem leaves_finalizeOperation {operation expected : OperationRecord} (record : JsonValues.Json) (pinned : ℕ × String)
    (h : operation.transactionHash = expected.transactionHash) :
    Leaves lib (finalizeOperation lib node operation expected record pinned) := by
  intro g
  refine (claims_terminalOutcome operation record g).bind ?_
  rintro g' ⟨operation', terminalState⟩ ⟨rfl, hhash⟩
  have hhash' : operation'.transactionHash = expected.transactionHash := hhash.trans h
  cases terminalState with
  | none => exact leaves_persistOperation hhash' g'
  | some terminalState =>
    refine (leaves_recheckPinnedBlock pinned g').then ?_
    rintro (code | _)
    · exact leaves_persistOperation (by exact hhash') g'
    · exact leaves_persistOperation (by exact hhash') g'

theorem transactionHash_updateConfirmingOperation {operation updated : OperationRecord} {observation : Observation}
    {headNumber : ℕ} (h : updateConfirmingOperation operation observation headNumber = .ok updated) :
    updated.transactionHash = operation.transactionHash := by
  rw [updateConfirmingOperation] at h
  cases hgas : optionalQuantity observation.receipt.gasUsed with
  | error e => simp [hgas, bind, Except.bind] at h
  | ok gasUsed =>
    cases hprice : optionalQuantity observation.receipt.effectiveGasPrice with
    | error e => simp [hgas, hprice, bind, Except.bind] at h
    | ok effectiveGasPrice =>
      rw [hgas, hprice] at h
      cases h
      rfl

theorem leaves_operationStatus : Leaves lib (operationStatus lib node) := by
  refine leaves_loadOperationStatusFacts.bind ?_
  rintro ⟨operation, record, pinned⟩
  dsimp only
  split
  · exact leaves_pure _
  · refine (leaves_observeOperationReceipt operation).bind ?_
    rintro (_ | observation)
    · refine leaves_persistOperation ?_
      rw [missingReceipt]
      split
      · rfl
      · split <;> rfl
    · dsimp only
      split
      · exact leaves_persistOperation (by rfl)
      · have hupdate : ∀ g, Claims lib (fun g' updated => g' = g ∧ updated.transactionHash = operation.transactionHash) g
            (ExceptT.mk (pure (updateConfirmingOperation operation observation pinned.1)) : CallM World OperationRecord) :=
          fun g => follows_except fun updated hupdated => ⟨rfl, transactionHash_updateConfirmingOperation hupdated⟩
        intro g
        refine (hupdate g).bind ?_
        rintro g' updated ⟨rfl, hhash⟩
        split
        · exact leaves_persistOperation hhash g'
        · exact leaves_finalizeOperation record pinned hhash g'

theorem claims_program (op : Op) :
    Program.Obeys (permits lib) Claim.after (fun _ _ => True) {} (program lib node op) := by
  cases op with
  | send request config => exact Program.Obeys.mono (claims_sendResolvedTransaction request config) fun _ _ _ => trivial
  | status => exact Program.Obeys.mono (leaves_operationStatus {}) fun _ _ _ => trivial

end Programs

section Runs

variable {World : Type} {lib : BlockchainLibrary} {node : Node World} {Thread : Type}

/-- What a claim says of the shared state. -/
structure Claim.Holds (g : Claim) (s : Shared World) : Prop where
  stored : ∀ operation, g.linked = some operation →
    ∃ found, s.stored = some found ∧ found.transactionHash = operation.transactionHash
  durable : g.synced = true → s.durable = true
  unsent : g.linked.isSome → g.sent = false → s.broadcasts = []

structure Knows (lib : BlockchainLibrary) (s : Shared World) (l : Caller World) : Prop where
  obeys : Program.Obeys (permits lib) Claim.after (fun _ _ => True) (claimOf l.trace) l.program
  holds : (claimOf l.trace).Holds s

/-- At most one broadcast, for a durable record; only one caller has linked it. -/
structure Sound (lib : BlockchainLibrary) (σ : System Thread (Shared World) (Caller World)) : Prop where
  once : σ.shared.broadcasts.length ≤ 1
  present : σ.shared.durable = true → σ.shared.stored.isSome
  claimed : σ.shared.broadcasts ≠ [] → σ.shared.durable = true
  knows : ∀ t, Knows lib σ.shared (σ.threads t)
  exclusive : Exclusive (fun l => (claimOf l.trace).linked.map fun _ => ()) σ

theorem holds_empty (s : Shared World) : ({} : Claim).Holds s := by
  refine ⟨?_, ?_, ?_⟩
  · intro operation hlinked
    cases hlinked
  · intro hsynced
    cases hsynced
  · intro hlinked
    cases hlinked

theorem knows_idle (s : Shared World) : Knows lib s .idle := ⟨trivial, holds_empty s⟩

theorem sound_initial : Sound lib (initial Thread World) where
  once := Nat.zero_le 1
  present := nofun
  claimed h := absurd rfl h
  knows _ := knows_idle _
  exclusive := nofun

theorem hash_store {g : Claim} {c : Stmt} (hpermits : permits lib g c) (fault : StorageFault) {stored : Option OperationRecord}
    {found : OperationRecord} (h : stored = some found) :
    ∃ found', c.store fault stored = some found' ∧ found'.transactionHash = found.transactionHash := by
  cases c with
  | link operation =>
    refine ⟨found, ?_, rfl⟩
    rw [Stmt.store, h]
    split <;> rfl
  | replace operation expected =>
    rw [Stmt.store]
    split
    · next hreplaced =>
      obtain rfl : found = expected := Option.some.inj (h.symm.trans hreplaced.2)
      exact ⟨operation, rfl, hpermits⟩
    · exact ⟨found, h, rfl⟩
  | loadOperation | loadPreparation | loadResolution | loadAccount | rpc | syncDirectory => exact ⟨found, h, rfl⟩

theorem isSome_store (c : Stmt) (fault : StorageFault) {stored : Option OperationRecord} (h : stored.isSome) :
    (c.store fault stored).isSome := by
  cases c with
  | link operation =>
    rw [Stmt.store]
    split
    · exact h
    · rfl
  | replace operation expected =>
    rw [Stmt.store]
    split
    · rfl
    · exact h
  | loadOperation | loadPreparation | loadResolution | loadAccount | rpc | syncDirectory => exact h

theorem isSome_of_syncs {c : Stmt} {fault : StorageFault} {stored : Option OperationRecord} (h : c.syncs fault stored = true) :
    stored.isSome := by
  cases c with
  | syncDirectory =>
    rw [Stmt.syncs, decide_eq_true_eq] at h
    exact h.2
  | replace operation expected =>
    rw [Stmt.syncs, decide_eq_true_eq] at h
    rw [h.2]
    rfl
  | loadOperation | loadPreparation | loadResolution | loadAccount | rpc | link => cases h

section Statements

variable {s : Shared World} {env : Env World} {c : Stmt} {g : Claim}

theorem Claim.Holds.apply (h : g.Holds s) {g' : Claim} (hpermits : permits lib g' c)
    (hsends : g.linked.isSome → c.broadcasts = []) : g.Holds (s.apply env c) where
  stored operation hlinked := by
    obtain ⟨found, hfound, hhash⟩ := h.stored operation hlinked
    obtain ⟨found', hfound', hhash'⟩ := hash_store hpermits env.fault hfound
    exact ⟨found', hfound', hhash'.trans hhash⟩
  durable hsynced := by
    rw [Shared.apply, h.durable hsynced, Bool.true_or]
  unsent hlinked hsent := by
    rw [Shared.apply, h.unsent hlinked hsent, hsends hlinked]
    rfl

theorem linked_eq_true (operation : OperationRecord) (h : (s.reply env).linked = .ok true) :
    s.stored = none ∧ (s.apply env (.link operation)).stored = some operation := by
  rw [Reply.linked] at h
  cases hfault : (s.reply env).env.fault with
  | none =>
    rw [hfault] at h
    have hnone : s.stored = none := by simpa [Shared.reply] using h
    refine ⟨hnone, ?_⟩
    have hfault' : env.fault = .none := hfault
    simp [Shared.apply, Stmt.store, hfault', hnone, StorageFault.isBefore]
  | before | after =>
    rw [hfault] at h
    cases h

theorem Claim.Holds.after (h : g.Holds s) (hpermits : permits lib g c) (hempty : s.stored = none → s.broadcasts = []) :
    (g.after c (s.reply env)).Holds (s.apply env c) := by
  cases c with
  | link operation =>
    obtain rfl : g = {} := hpermits
    cases hlinked : (s.reply env).linked with
    | error reason =>
      rw [Claim.after, hlinked]
      exact holds_empty _
    | ok linked =>
      cases linked with
      | false =>
        rw [Claim.after, hlinked]
        exact holds_empty _
      | true =>
        obtain ⟨hnone, hstored⟩ := linked_eq_true operation hlinked
        rw [Claim.after, hlinked]
        refine ⟨?_, nofun, fun _ _ => ?_⟩
        · rintro operation' hoperation
          cases hoperation
          exact ⟨operation, hstored, rfl⟩
        · rw [Shared.apply, hempty hnone]
          rfl
  | syncDirectory =>
    have hold : g.Holds (s.apply env .syncDirectory) := h.apply hpermits fun _ => rfl
    cases hsynced : (s.reply env).synced with
    | error reason =>
      rw [Claim.after, hsynced]
      exact hold
    | ok _ =>
      rw [Claim.after, hsynced]
      refine ⟨hold.stored, fun _ => ?_, hold.unsent⟩
      have hfault : env.fault = .none := by
        cases hfault : env.fault with
        | none => rfl
        | before | after => simp [Reply.synced, Shared.reply, hfault] at hsynced
      obtain ⟨operation, hoperation⟩ := Option.isSome_iff_exists.mp hpermits
      obtain ⟨found, hfound, -⟩ := h.stored operation hoperation
      simp [Shared.apply, Stmt.syncs, hfault, hfound]
  | rpc call =>
    cases call with
    | sendRawTransaction raw =>
      obtain ⟨hsynced, -, -⟩ := hpermits
      refine ⟨?_, ?_, nofun⟩
      · exact fun operation hlinked => h.stored operation hlinked
      · exact fun _ => by rw [Shared.apply, h.durable hsynced, Bool.true_or]
    | _ => exact h.apply hpermits fun _ => rfl
  | loadOperation | loadPreparation | loadResolution | loadAccount | replace => exact h.apply hpermits fun _ => rfl

end Statements

theorem broadcasts_permitted {g : Claim} {c : Stmt} (h : permits lib g c) :
    c.broadcasts = [] ∨ (g.linked.isSome ∧ g.synced = true ∧ g.sent = false ∧ c.broadcasts.length = 1) := by
  cases c with
  | rpc call =>
    cases call with
    | sendRawTransaction raw =>
      obtain ⟨hsynced, hsent, operation, hlinked, -⟩ := h
      exact .inr ⟨by rw [hlinked]; rfl, hsynced, hsent, rfl⟩
    | _ => exact .inl rfl
  | loadOperation | loadPreparation | loadResolution | loadAccount | link | syncDirectory | replace => exact .inl rfl

theorem linked_after {g : Claim} {c : Stmt} {s : Shared World} {env : Env World}
    (h : (g.after c (s.reply env)).linked.isSome) : g.linked.isSome ∨ s.stored = none := by
  cases c with
  | link operation =>
    cases hlinked : (s.reply env).linked with
    | error reason =>
      rw [Claim.after, hlinked] at h
      exact .inl h
    | ok linked =>
      cases linked with
      | false =>
        rw [Claim.after, hlinked] at h
        exact .inl h
      | true => exact .inr (linked_eq_true operation hlinked).1
  | syncDirectory =>
    rw [Claim.after] at h
    split at h <;> exact .inl h
  | rpc call => cases call <;> exact .inl h
  | loadOperation | loadPreparation | loadResolution | loadAccount | replace => exact .inl h

variable {σ : System Thread (Shared World) (Caller World)} [DecidableEq Thread]

omit [DecidableEq Thread] in
theorem Sound.unclaimed (h : Sound lib σ) (hnone : σ.shared.stored = none) : σ.shared.broadcasts = [] := by
  by_contra hne
  have hsome := h.present (h.claimed hne)
  rw [hnone] at hsome
  cases hsome

theorem Sound.advance (h : Sound lib σ) (t : Thread) (env : Env World) {c : Stmt}
    {next : Reply World → Prog World (Except CallResult CallResult)} (hprogram : (σ.threads t).program = .step c next) :
    Sound lib (σ.become t (σ.shared.apply env c,
      ⟨next (σ.shared.reply env), (c, σ.shared.reply env) :: (σ.threads t).trace⟩)) := by
  have hobeys := (h.knows t).obeys
  rw [hprogram] at hobeys
  obtain ⟨hpermits, hnext⟩ := hobeys
  have hholds := (h.knows t).holds
  -- another caller that has linked the record would have linked what this one sends
  have hothers : ∀ t', t' ≠ t → (claimOf (σ.threads t').trace).linked.isSome → c.broadcasts = [] := by
    intro t' hne hlinked'
    rcases broadcasts_permitted hpermits with hquiet | ⟨hlinked, -⟩
    · exact hquiet
    · obtain ⟨operation, hoperation⟩ := Option.isSome_iff_exists.mp hlinked
      obtain ⟨operation', hoperation'⟩ := Option.isSome_iff_exists.mp hlinked'
      exact absurd (h.exclusive t' t () (by simp [hoperation']) (by simp [hoperation])) hne
  refine ⟨?_, ?_, ?_, ?_, ?_⟩
  · rcases broadcasts_permitted hpermits with hquiet | ⟨hlinked, -, hsent, hone⟩
    · simpa [Shared.apply, hquiet] using h.once
    · simp [Shared.apply, hholds.unsent hlinked hsent, hone]
  · intro hdurable
    rw [shared_become, Shared.apply, Bool.or_eq_true] at hdurable
    rcases hdurable with hold | hsyncs
    · exact isSome_store c env.fault (h.present hold)
    · exact isSome_store c env.fault (isSome_of_syncs hsyncs)
  · intro hne
    rw [shared_become, Shared.apply, Bool.or_eq_true]
    rcases broadcasts_permitted hpermits with hquiet | ⟨-, hsynced, -⟩
    · refine .inl (h.claimed fun hnone => hne ?_)
      rw [shared_become, Shared.apply, hnone, hquiet]
      rfl
    · exact .inl (hholds.durable hsynced)
  · intro t'
    rw [threads_become]
    by_cases ht : t' = t
    · rw [if_pos ht]
      exact ⟨hnext _, hholds.after hpermits h.unclaimed⟩
    · rw [if_neg ht]
      exact ⟨(h.knows t').obeys, (h.knows t').holds.apply hpermits (hothers t' ht)⟩
  · refine h.exclusive.become ?_
    rintro ⟨⟩ hlinked
    have hsome : ((claimOf (σ.threads t).trace).after c (σ.shared.reply env)).linked.isSome := by
      obtain ⟨operation, hoperation, -⟩ := Option.map_eq_some_iff.mp hlinked
      exact Option.isSome_iff_exists.mpr ⟨operation, hoperation⟩
    rcases linked_after hsome with hold | hnone
    · obtain ⟨operation, hoperation⟩ := Option.isSome_iff_exists.mp hold
      exact .inl (by simp [hoperation])
    · refine .inr fun t' _ hlinked' => ?_
      obtain ⟨operation, hoperation, -⟩ := Option.map_eq_some_iff.mp hlinked'
      obtain ⟨found, hfound, -⟩ := (h.knows t').holds.stored operation hoperation
      rw [hnone] at hfound
      cases hfound

theorem Sound.step (h : Sound lib σ) (event : Event Thread World) : Sound lib (step lib node σ event) := by
  cases event with
  | powerLoss isKept =>
    refine ⟨h.once, ?_, h.claimed, fun _ => knows_idle _, nofun⟩
    intro hdurable
    simpa [BlockchainOperations.step, show σ.shared.durable = true from hdurable] using h.present hdurable
  | act action =>
    cases action with
    | start t op =>
      rw [BlockchainOperations.step, Threads.step]
      split
      · have hown : Knows lib σ.shared ⟨program lib node op, []⟩ := ⟨claims_program op, holds_empty _⟩
        have hstart : Annotated (fun _ => True) (Knows lib) (σ.become t ((callers lib node).begin σ.shared op)) :=
          (Annotated.move ⟨trivial, h.knows⟩ hown).annotated
        refine ⟨h.once, h.present, h.claimed, hstart.threads, h.exclusive.become ?_⟩
        rintro ⟨⟩ hlinked
        cases hlinked
      · exact h
    | advance t env =>
      rw [BlockchainOperations.step, Threads.step]
      cases hprogram : (σ.threads t).program with
      | done a =>
        have hsame : (callers lib node).next σ.shared (σ.threads t) env = (σ.shared, σ.threads t) := by
          simp [callers, hprogram]
        have hsystem : σ.become t (σ.shared, σ.threads t) = σ := by simp [System.become]
        rw [hsame, hsystem]
        exact h
      | step c next =>
        have hnext : (callers lib node).next σ.shared (σ.threads t) env = (σ.shared.apply env c,
            ⟨next (σ.shared.reply env), (c, σ.shared.reply env) :: (σ.threads t).trace⟩) := by
          simp [callers, hprogram]
        rw [hnext]
        exact h.advance t env hprogram

omit [DecidableEq Thread] in
theorem Sound.claimedFirst (h : Sound lib σ) (event : Event Thread World) : ClaimedFirst lib σ event := by
  cases event with
  | powerLoss isKept => trivial
  | act action =>
    cases action with
    | start t op => trivial
    | advance t env =>
      rw [ClaimedFirst]
      split
      · next raw next hprogram =>
        have hobeys := (h.knows t).obeys
        rw [hprogram] at hobeys
        obtain ⟨hsynced, -, operation, hlinked, hhash⟩ := hobeys.1
        obtain ⟨found, hfound, hfoundHash⟩ := (h.knows t).holds.stored operation hlinked
        exact ⟨(h.knows t).holds.durable hsynced, found, hfound, hfoundHash.trans hhash⟩
      · trivial

/-- **A preparation is broadcast at most once, and only after its operation record was claimed.** -/
theorem broadcast_at_most_once (lib : BlockchainLibrary) (node : Node World) (events : List (Event Thread World)) :
    (run (step lib node) (initial Thread World) events).shared.broadcasts.length ≤ 1 ∧
      Guarded (step lib node) (ClaimedFirst lib) (initial Thread World) events := by
  have hstep : ∀ (σ : System Thread (Shared World) (Caller World)) event, Sound lib σ →
      Sound lib (step lib node σ event) := fun _ event h => h.step event
  refine ⟨(run_invariant (I := Sound lib) hstep sound_initial events).once, ?_⟩
  have hall : Guarded (step lib node) (fun _ _ => True) (initial Thread World) events :=
    Guarded.of_forall (fun _ _ => trivial) _ events
  exact hall.weaken (I := Sound lib) (fun σ event h _ => hstep σ event h) (fun _ event h _ => h.claimedFirst event) sound_initial

end Runs
end OpenMinion.BlockchainOperations
