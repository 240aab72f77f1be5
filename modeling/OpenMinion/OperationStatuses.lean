import OpenMinion.BlockchainBroadcasts
import OpenMinion.ChainHistories

/-!
# What the status of an operation says of the chain

Calls run among others while the chain goes from one state to any other between two statements. A record becomes
terminal on evidence in the trace of its call.
-/
namespace OpenMinion.OperationStatuses
open BlockchainOperations ChainHistories EarlyPrograms InterleavedThreads StatementPrograms TransitionRuns

variable {L : Ledger}

abbrev Entry (L : Ledger) := Stmt × Reply (ChainView L)
abbrev Trace (L : Ledger) := List (Entry L)

def readsHead (r : Reply (ChainView L)) (pinned : ℕ × String) : Prop :=
  answered node .latestBlock Answer.toBlock r = .ok pinned

def readsReceipt (r : Reply (ChainView L)) (transactionHash : String) (receipt : Option Receipt) : Prop :=
  answered node (.transactionReceipt transactionHash) Answer.toReceipt r = .ok receipt

/-- The call has loaded the operation and then pinned the head. -/
def Facts (g : Trace L) (operation : OperationRecord) (pinned : ℕ × String) : Prop :=
  ∃ load head, List.Sublist [(.rpc .latestBlock, head), (.loadOperation, load)] g ∧ load.loaded = .ok operation ∧ readsHead head pinned

def NoReceipt (g : Trace L) (operation : OperationRecord) (pinned : ℕ × String) : Prop :=
  ∃ load head receipt, List.Sublist [(.rpc (.transactionReceipt operation.transactionHash), receipt),
      (.rpc .latestBlock, head), (.loadOperation, load)] g ∧
    load.loaded = .ok operation ∧ readsHead head pinned ∧ readsReceipt receipt operation.transactionHash none

/-- Then it has read a receipt, and after it the block at its height. -/
def Observed (g : Trace L) (operation : OperationRecord) (pinned : ℕ × String) (observation : Observation) : Prop :=
  ∃ load head receipt block, List.Sublist [(.rpc (.blockByNumber observation.number), block),
      (.rpc (.transactionReceipt operation.transactionHash), receipt), (.rpc .latestBlock, head), (.loadOperation, load)] g ∧
    load.loaded = .ok operation ∧ readsHead head pinned ∧
    readsReceipt receipt operation.transactionHash (some observation.receipt) ∧
    observation.receipt.blockNumber = .value observation.number ∧ observation.receipt.blockHash = some observation.hash ∧
    answered node (.blockByNumber observation.number) Answer.toCanonicalBlock block = .ok observation.canonical

def isConfirmed : OperationState → Bool
  | .succeeded | .reverted | .postconditionFailed => true
  | _ => false

/-- What a call must have read before it replaces a record. -/
structure Evidence (g : Trace L) (operation expected : OperationRecord) : Prop where
  isOpen : expected.state.isTerminal = false
  transactionHash : operation.transactionHash = expected.transactionHash
  block : (operation.receiptBlockNumber = expected.receiptBlockNumber ∧ operation.receiptBlockHash = expected.receiptBlockHash) ∨
    ∃ pinned observation, Observed g expected pinned observation ∧
      operation.receiptBlockNumber = some observation.number ∧ operation.receiptBlockHash = some observation.hash
  confirmed : isConfirmed operation.state = true → ∃ pinned observation, Observed g expected pinned observation ∧
    operation.receiptBlockNumber = some observation.number ∧ operation.receiptBlockHash = some observation.hash ∧
    observation.canonical = some (observation.number, observation.hash) ∧ observation.number ≤ pinned.1 ∧
    operation.confirmationDepth ≤ pinned.1 + 1 - observation.number
  reorged : operation.state = .reorged →
    (∃ pinned, NoReceipt g expected pinned ∧ expected.receiptBlockNumber.isSome) ∨
    ∃ pinned observation, Observed g expected pinned observation ∧ receiptIsReorged expected observation pinned.1 = true

def permits (g : Trace L) : Stmt → Prop
  | .link operation => operation.state = .broadcastUnknown ∧ operation.receiptBlockNumber = none ∧ operation.receiptBlockHash = none
  | .replace operation expected => Evidence g operation expected
  | _ => True

def learn (g : Trace L) (c : Stmt) (r : Reply (ChainView L)) : Trace L := (c, r) :: g

def Stable (K : Trace L → Prop) : Prop := ∀ x g, K g → K (x :: g)

abbrev Tells {α : Type} (Q : Trace L → α → Prop) (g : Trace L) (m : CallM (ChainView L) α) : Prop :=
  Follows permits learn Q g m

/-- A program under which what is known stays known. -/
abbrev Keeps {α : Type} (m : CallM (ChainView L) α) : Prop :=
  ∀ K : Trace L → Prop, Stable K → ∀ g, K g → Tells (fun g' _ => K g') g m

theorem stable_facts (operation : OperationRecord) (pinned : ℕ × String) : Stable (L := L) (Facts · operation pinned) := by
  rintro x g ⟨load, head, hsub, hrest⟩
  exact ⟨load, head, hsub.cons x, hrest⟩

theorem stable_observed (operation : OperationRecord) (pinned : ℕ × String) (observation : Observation) :
    Stable (L := L) (Observed · operation pinned observation) := by
  rintro x g ⟨load, head, receipt, block, hsub, hrest⟩
  exact ⟨load, head, receipt, block, hsub.cons x, hrest⟩

theorem stable_noReceipt (operation : OperationRecord) (pinned : ℕ × String) :
    Stable (L := L) (NoReceipt · operation pinned) := by
  rintro x g ⟨load, head, receipt, hsub, hrest⟩
  exact ⟨load, head, receipt, hsub.cons x, hrest⟩

theorem stable_evidence (operation expected : OperationRecord) : Stable (L := L) (Evidence · operation expected) := by
  intro x g h
  refine ⟨h.isOpen, h.transactionHash, h.block.imp_right ?_, fun hconfirmed => ?_, fun hreorged => ?_⟩
  · rintro ⟨pinned, observation, hobserved, hrest⟩
    exact ⟨pinned, observation, stable_observed _ _ _ x g hobserved, hrest⟩
  · obtain ⟨pinned, observation, hobserved, hrest⟩ := h.confirmed hconfirmed
    exact ⟨pinned, observation, stable_observed _ _ _ x g hobserved, hrest⟩
  · rcases h.reorged hreorged with ⟨pinned, hnone, hsome⟩ | ⟨pinned, observation, hobserved, hrest⟩
    · exact .inl ⟨pinned, stable_noReceipt _ _ x g hnone, hsome⟩
    · exact .inr ⟨pinned, observation, stable_observed _ _ _ x g hobserved, hrest⟩

section Programs

variable {lib : BlockchainLibrary} {α β : Type} {g : Trace L}

theorem keeps_pure (a : α) : Keeps (L := L) (pure a) := fun _ _ _ hg => follows_pure hg

theorem keeps_throw (e : CallResult) : Keeps (L := L) (throw e : CallM _ α) := fun _ _ _ _ => follows_throw e

theorem keeps_endIf (p : Prop) [Decidable p] (result : CallResult) : Keeps (L := L) (endIf p result) := by
  rw [endIf]
  split
  · exact keeps_throw _
  · exact keeps_pure _

theorem keeps_ask {c : Stmt} {f : Reply (ChainView L) → Except CallResult α} (h : ∀ g : Trace L, permits g c) :
    Keeps (ask c f) := fun _ hK g hg => follows_ask (h g) fun r _ _ => hK (c, r) g hg

theorem Keeps.bind {m : CallM (ChainView L) α} {f : α → CallM (ChainView L) β} (hm : Keeps m) (hf : ∀ a, Keeps (f a)) :
    Keeps (m >>= f) := fun K hK g hg => (hm K hK g hg).bind fun g' a hg' => hf a K hK g' hg'

theorem Keeps.then {m : CallM (ChainView L) α} {f : α → CallM (ChainView L) β} {K : Trace L → Prop} {Q : Trace L → β → Prop}
    (hm : Keeps m) (hK : Stable K) (hg : K g) (hf : ∀ g' a, K g' → Tells Q g' (f a)) : Tells Q g (m >>= f) :=
  (hm K hK g hg).bind hf

theorem keeps_rpcCall (call : RpcCall) (decode : Answer → Option α) (failure : String → CallResult) :
    Keeps (L := L) (rpcCall node call decode failure) := keeps_ask fun _ => trivial

theorem keeps_recheckPinnedBlock (pinned : ℕ × String) : Keeps (L := L) (recheckPinnedBlock node pinned) :=
  keeps_ask fun _ => trivial

theorem tells_rpcCall {call : RpcCall} {decode : Answer → Option α} {failure : String → CallResult} {Q : Trace L → α → Prop}
    (h : ∀ r a, answered node call decode r = .ok a → Q ((.rpc call, r) :: g) a) :
    Tells Q g (rpcCall node call decode failure) := by
  refine follows_ask trivial fun r a ha => h r a ?_
  cases hanswered : answered node call decode r with
  | error code =>
    rw [hanswered] at ha
    cases ha
  | ok a' =>
    rw [hanswered] at ha
    cases ha
    rfl

theorem tells_loadOperationStatusFacts (g : Trace L) :
    Tells (fun g' r => Facts g' r.1 r.2.2) g (loadOperationStatusFacts lib node) := by
  refine Follows.bind (P := fun g' operation => ∃ load, (Stmt.loadOperation, load) ∈ g' ∧ load.loaded = .ok operation) ?_
    fun g₁ operation hg₁ => ?_
  · refine follows_ask trivial fun r operation hr => ⟨r, List.mem_cons_self, ?_⟩
    split at hr
    · cases hr
    · cases hr
    · cases hr
    · next hloaded =>
      cases hr
      exact hloaded
  have hstable : Stable fun g' : Trace L => ∃ load, (Stmt.loadOperation, load) ∈ g' ∧ load.loaded = .ok operation := by
    rintro x g' ⟨load, hmem, hloaded⟩
    exact ⟨load, List.mem_cons_of_mem x hmem, hloaded⟩
  refine (keeps_ask fun _ => by trivial).then hstable hg₁ fun g₂ preparation hg₂ => ?_
  refine (keeps_ask fun _ => by trivial).then hstable hg₂ fun g₃ record hg₃ => ?_
  refine (keeps_rpcCall _ _ _).then hstable hg₃ fun g₄ _ hg₄ => ?_
  have hhead : Tells (fun g' pinned => Facts g' operation pinned) g₄
      (rpcCall node .latestBlock Answer.toBlock .error) := by
    obtain ⟨load, hmem, hloaded⟩ := hg₄
    refine tells_rpcCall fun r pinned hr => ⟨load, r, ?_, hloaded, hr⟩
    exact List.cons_sublist_cons.mpr (List.singleton_sublist.mpr hmem)
  refine hhead.bind fun g₅ pinned hg₅ => ?_
  refine (keeps_recheckPinnedBlock pinned).then (stable_facts operation pinned) hg₅ ?_
  rintro g₆ (code | _) hg₆
  · exact follows_throw _
  · refine (keeps_endIf _ _).then (stable_facts operation pinned) hg₆ fun g₇ _ hg₇ => ?_
    refine (keeps_endIf _ _).then (stable_facts operation pinned) hg₇ fun g₈ _ hg₈ => ?_
    exact follows_pure hg₈

def Reading (g : Trace L) (operation : OperationRecord) (pinned : ℕ × String) : Option Observation → Prop
  | none => NoReceipt g operation pinned
  | some observation => Observed g operation pinned observation

theorem tells_observeOperationReceipt {operation : OperationRecord} {pinned : ℕ × String} (hg : Facts g operation pinned) :
    Tells (fun g' observed => Reading g' operation pinned observed) g (observeOperationReceipt node operation) := by
  obtain ⟨load, head, hsub, hloaded, hhead⟩ := hg
  have hreceipt : Tells (fun g' found => ∃ receipt, List.Sublist [(.rpc (.transactionReceipt operation.transactionHash), receipt),
        (.rpc .latestBlock, head), (.loadOperation, load)] g' ∧ readsReceipt receipt operation.transactionHash found) g
      (rpcCall node (.transactionReceipt operation.transactionHash) Answer.toReceipt .error) :=
    tells_rpcCall fun r found hr => ⟨r, List.cons_sublist_cons.mpr hsub, hr⟩
  refine hreceipt.bind ?_
  rintro g₁ (_ | receipt) ⟨r, hsub₁, hr⟩
  · exact follows_pure ⟨load, head, r, hsub₁, hloaded, hhead, hr⟩
  · have hstable : Stable fun g' : Trace L => List.Sublist [(.rpc (.transactionReceipt operation.transactionHash), r),
        (.rpc .latestBlock, head), (.loadOperation, load)] g' := fun x g' hg' => hg'.cons x
    refine (keeps_endIf _ _).then hstable hsub₁ fun g₂ _ hsub₂ => ?_
    split
    · next number hash status hnumber hhash hstatus =>
      refine (keeps_endIf _ _).then hstable hsub₂ fun g₃ _ hsub₃ => ?_
      have hblock : Tells (fun g' canonical => Observed g' operation pinned ⟨receipt, number, hash, status, canonical⟩) g₃
          (rpcCall node (.blockByNumber number) Answer.toCanonicalBlock .error) :=
        tells_rpcCall fun block canonical hcanonical =>
          ⟨load, head, r, block, List.cons_sublist_cons.mpr hsub₃, hloaded, hhead, hr, hnumber, hhash, hcanonical⟩
      exact hblock.bind fun g₄ canonical hg₄ => follows_pure hg₄
    · exact follows_throw _

theorem tells_persistOperation {operation expected : OperationRecord} (h : Evidence g operation expected) :
    Tells (fun _ _ => True) g (persistOperation lib operation expected) := by
  refine (keeps_endIf _ _).then (stable_evidence operation expected) h fun g₁ _ hg₁ => ?_
  have hreplace : Tells (fun _ _ => True) g₁ (look (.replace operation expected) (·.replaced expected)) :=
    follows_ask hg₁ fun _ _ _ => trivial
  refine hreplace.bind ?_
  rintro g₂ (reason | _ | _) -
  · exact follows_throw _
  · have hload : Tells (fun _ _ => True) g₂ (look .loadOperation (·.loaded)) := follows_ask trivial fun _ _ _ => trivial
    refine hload.bind ?_
    rintro g₃ (reason | current) -
    · exact follows_throw _
    · exact follows_pure trivial
  · exact follows_pure trivial

/-- What a call knows of the record that it is about to write. -/
structure Confirming (g : Trace L) (pinned : ℕ × String) (updated expected : OperationRecord) : Prop where
  isOpen : expected.state.isTerminal = false
  transactionHash : updated.transactionHash = expected.transactionHash
  observed : ∃ observation, Observed g expected pinned observation ∧ updated.receiptBlockNumber = some observation.number ∧
    updated.receiptBlockHash = some observation.hash ∧ observation.canonical = some (observation.number, observation.hash) ∧
    observation.number ≤ pinned.1
  confirmations : updated.confirmations = pinned.1 + 1 - updated.receiptBlockNumber.getD 0

theorem stable_confirming (pinned : ℕ × String) (updated expected : OperationRecord) :
    Stable (L := L) (Confirming · pinned updated expected) := by
  rintro x g ⟨hopen, hhash, ⟨observation, hobserved, hrest⟩, hconfirmations⟩
  exact ⟨hopen, hhash, ⟨observation, stable_observed _ _ _ x g hobserved, hrest⟩, hconfirmations⟩

theorem Confirming.evidence {pinned : ℕ × String} {updated expected operation : OperationRecord}
    (h : Confirming g pinned updated expected) (hhash : operation.transactionHash = updated.transactionHash)
    (hnumber : operation.receiptBlockNumber = updated.receiptBlockNumber)
    (hblock : operation.receiptBlockHash = updated.receiptBlockHash) (hstate : operation.state ≠ .reorged)
    (hdeep : isConfirmed operation.state = true → operation.confirmationDepth ≤ updated.confirmations) :
    Evidence g operation expected := by
  obtain ⟨observation, hobserved, hnumber', hblock', hcanonical, hle⟩ := h.observed
  refine ⟨h.isOpen, hhash.trans h.transactionHash,
    .inr ⟨pinned, observation, hobserved, hnumber.trans hnumber', hblock.trans hblock'⟩, fun hconfirmed => ?_,
    fun hreorged => absurd hreorged hstate⟩
  refine ⟨pinned, observation, hobserved, hnumber.trans hnumber', hblock.trans hblock', hcanonical, hle, ?_⟩
  have hdepth := hdeep hconfirmed
  rwa [h.confirmations, hnumber', Option.getD_some] at hdepth

theorem confirming_of_observed {operation updated : OperationRecord} {pinned : ℕ × String} {observation : Observation}
    (hobserved : Observed g operation pinned observation) (hopen : operation.state.isTerminal = false)
    (hsettled : receiptIsReorged operation observation pinned.1 = false)
    (hupdate : updateConfirmingOperation operation observation pinned.1 = .ok updated) :
    Confirming g pinned updated operation ∧ updated.state = .confirming ∧ updated.confirmationDepth = operation.confirmationDepth := by
  simp only [receiptIsReorged, Bool.or_eq_false_iff, decide_eq_false_iff_not, not_lt, not_not] at hsettled
  obtain ⟨⟨⟨hle, hcanonical⟩, -⟩, -⟩ := hsettled
  rw [updateConfirmingOperation] at hupdate
  cases hgas : optionalQuantity observation.receipt.gasUsed with
  | error e => simp [hgas, bind, Except.bind] at hupdate
  | ok gasUsed =>
    cases hprice : optionalQuantity observation.receipt.effectiveGasPrice with
    | error e => simp [hgas, hprice, bind, Except.bind] at hupdate
    | ok effectiveGasPrice =>
      rw [hgas, hprice] at hupdate
      cases hupdate
      exact ⟨⟨hopen, rfl, ⟨observation, hobserved, rfl, rfl, hcanonical, hle⟩, rfl⟩, rfl, rfl⟩

/-- The fields of a record that the results of its postconditions leave. -/
structure SameBlock (operation updated : OperationRecord) : Prop where
  transactionHash : operation.transactionHash = updated.transactionHash
  receiptBlockNumber : operation.receiptBlockNumber = updated.receiptBlockNumber
  receiptBlockHash : operation.receiptBlockHash = updated.receiptBlockHash
  confirmationDepth : operation.confirmationDepth = updated.confirmationDepth

theorem obeys_postconditionResult {K : Trace L → Prop} (hK : Stable K) (record : JsonValues.Json) (number : ℕ)
    (postcondition : EqualityPostcondition) (hg : K g) :
    Program.Obeys permits learn (fun g' _ => K g') g (postconditionResult lib node record number postcondition) := by
  rw [postconditionResult]
  dsimp only
  split
  · exact Program.obeys_pure hg
  · split
    · exact Program.obeys_pure hg
    · exact Program.obeys_perform trivial fun _ => hK _ g hg

theorem tells_terminalOutcome {K : Trace L → Prop} (hK : Stable K) (updated : OperationRecord) (record : JsonValues.Json)
    (hg : K g) : Tells (fun g' r => K g' ∧ SameBlock r.1 updated ∧ match r.2 with
        | none => r.1.state = .confirming
        | some terminalState => isConfirmed terminalState = true) g (terminalOutcome lib node updated record) := by
  unfold terminalOutcome
  split
  · exact follows_pure ⟨hg, ⟨rfl, rfl, rfl, rfl⟩, rfl⟩
  · have hresults : Program.Obeys permits learn (fun g' _ => K g') g
        (Program.mapList (postconditionResult lib node record (updated.receiptBlockNumber.getD 0)) updated.postconditions) := by
      refine Program.obeys_mapList (K := K) ?_ hg
      intro postcondition _ g' hg'
      exact obeys_postconditionResult hK record _ postcondition hg'
    refine (follows_lift hresults).bind fun g' results hg' => ?_
    dsimp only
    split
    · exact follows_pure ⟨hg', ⟨rfl, rfl, rfl, rfl⟩, rfl⟩
    · refine follows_pure ⟨hg', ⟨rfl, rfl, rfl, rfl⟩, ?_⟩
      dsimp only
      split <;> rfl

theorem tells_finalizeOperation {pinned : ℕ × String} {updated expected : OperationRecord} (record : JsonValues.Json)
    (h : Confirming g pinned updated expected) (hdeep : updated.confirmationDepth ≤ updated.confirmations) :
    Tells (fun _ _ => True) g (finalizeOperation lib node updated expected record pinned) := by
  refine (tells_terminalOutcome (stable_confirming pinned updated expected) updated record h).bind ?_
  rintro g₁ ⟨operation, terminalState⟩ ⟨hg₁, hsame, hstate⟩
  cases terminalState with
  | none =>
    have hstate : operation.state = .confirming := hstate
    refine tells_persistOperation (hg₁.evidence hsame.transactionHash hsame.receiptBlockNumber hsame.receiptBlockHash ?_ ?_)
    · rw [hstate]
      decide
    · rw [hstate]
      nofun
  | some terminalState =>
    have hstate : isConfirmed terminalState = true := hstate
    refine (keeps_recheckPinnedBlock pinned).then (stable_confirming pinned updated expected) hg₁ ?_
    rintro g₂ (code | _) hg₂
    · exact tells_persistOperation
        (hg₂.evidence hsame.transactionHash hsame.receiptBlockNumber hsame.receiptBlockHash nofun nofun)
    · refine tells_persistOperation
        (hg₂.evidence hsame.transactionHash hsame.receiptBlockNumber hsame.receiptBlockHash ?_ fun _ => ?_)
      · rintro rfl
        cases hstate
      · exact hsame.confirmationDepth.trans_le hdeep

theorem evidence_missingReceipt {operation : OperationRecord} {pinned : ℕ × String} (h : NoReceipt g operation pinned)
    (hopen : operation.state.isTerminal = false) : Evidence g (missingReceipt operation) operation := by
  rw [missingReceipt]
  split
  · next hsome => exact ⟨hopen, rfl, .inl ⟨rfl, rfl⟩, by rintro ⟨⟩, fun _ => .inl ⟨pinned, h, hsome⟩⟩
  · split
    · exact ⟨hopen, rfl, .inl ⟨rfl, rfl⟩, by rintro ⟨⟩, by rintro ⟨⟩⟩
    · next hunknown =>
      have hstate : operation.state = .broadcastUnknown := by simpa using hunknown
      refine ⟨hopen, rfl, .inl ⟨rfl, rfl⟩, ?_, ?_⟩
      · rw [hstate]
        rintro ⟨⟩
      · rw [hstate]
        rintro ⟨⟩

theorem tells_operationStatus (g : Trace L) : Tells (fun _ _ => True) g (operationStatus lib node) := by
  refine (tells_loadOperationStatusFacts g).bind ?_
  rintro g₁ ⟨operation, record, pinned⟩ hg₁
  dsimp only
  split
  · exact follows_pure trivial
  · next hterminal =>
    have hopen : operation.state.isTerminal = false := by simpa using hterminal
    refine (tells_observeOperationReceipt hg₁).bind ?_
    rintro g₂ (_ | observation) hg₂
    · exact tells_persistOperation (evidence_missingReceipt hg₂ hopen)
    · dsimp only
      split
      · next hreorged =>
        exact tells_persistOperation
          ⟨hopen, rfl, .inl ⟨rfl, rfl⟩, nofun, fun _ => .inr ⟨pinned, observation, hg₂, hreorged⟩⟩
      · next hsettled =>
        have hupdate : Tells (fun g' updated => Confirming g' pinned updated operation ∧ updated.state = .confirming ∧
            updated.confirmationDepth = operation.confirmationDepth) g₂
            (ExceptT.mk (pure (updateConfirmingOperation operation observation pinned.1))) :=
          follows_except fun updated hupdated => confirming_of_observed hg₂ hopen (by simpa using hsettled) hupdated
        refine hupdate.bind ?_
        rintro g₃ updated ⟨hg₃, hstate, hdepth⟩
        split
        · refine tells_persistOperation (hg₃.evidence rfl rfl rfl ?_ ?_)
          · rw [hstate]
            decide
          · rw [hstate]
            nofun
        · next hdeep => exact tells_finalizeOperation record hg₃ (Nat.not_lt.mp hdeep)

theorem keeps_loadValidatedSendResolution (request : ResolvedPreparedTransaction) :
    Keeps (L := L) (loadValidatedSendResolution lib node request) := by
  refine (keeps_ask fun _ => by trivial).bind fun stored => (keeps_endIf _ _).bind fun _ =>
    (keeps_ask fun _ => by trivial).bind fun record => (keeps_rpcCall _ _ _).bind fun pinned => ?_
  split
  · exact keeps_throw _
  · exact (keeps_endIf _ _).bind fun _ => keeps_pure _

theorem keeps_loadValidatedSendSigner (request : ResolvedPreparedTransaction) (config : BlockchainConfig) :
    Keeps (L := L) (loadValidatedSendSigner request config) := by
  refine (keeps_ask fun _ => by trivial).bind ?_
  rintro (_ | account)
  · exact keeps_throw _
  · exact (keeps_endIf _ _).bind fun _ => (keeps_endIf _ _).bind fun _ => keeps_pure _

theorem keeps_transactionFeeIsStale (transaction : Transaction) (baseFee : Quantity) :
    Keeps (L := L) (transactionFeeIsStale node transaction baseFee) := by
  unfold transactionFeeIsStale
  split
  · cases baseFee with
    | absent => exact keeps_pure _
    | malformed => exact keeps_throw _
    | value baseFee => exact (keeps_rpcCall _ _ _).bind fun _ => keeps_pure _
  · exact (keeps_rpcCall _ _ _).bind fun _ => keeps_pure _

theorem keeps_checkLiveSendState (request : ResolvedPreparedTransaction) (pinned : ℕ × String) (sender : String) :
    Keeps (L := L) (checkLiveSendState node request pinned sender) := by
  refine (keeps_rpcCall _ _ _).bind fun balance => (keeps_rpcCall _ _ _).bind fun nonce =>
    (keeps_endIf _ _).bind fun _ => (keeps_endIf _ _).bind fun _ => (keeps_rpcCall _ _ _).bind fun feeBlock =>
    (keeps_endIf _ _).bind fun _ => (keeps_transactionFeeIsStale _ _).bind fun stale => (keeps_endIf _ _).bind fun _ =>
    (keeps_rpcCall _ _ _).bind fun simulated => (keeps_endIf _ _).bind fun _ => (keeps_recheckPinnedBlock _).bind ?_
  rintro (code | _)
  · exact keeps_throw _
  · exact keeps_pure _

theorem keeps_claimOperation (request : ResolvedPreparedTransaction) (transactionHash : String) (depth : ℕ) :
    Keeps (L := L) (claimOperation lib (newOperation lib request transactionHash depth)) := by
  refine (keeps_endIf _ _).bind fun _ => (keeps_ask fun _ => by exact ⟨rfl, rfl, rfl⟩).bind ?_
  rintro (reason | _ | _)
  · exact keeps_throw _
  · exact keeps_throw _
  · refine (keeps_ask fun _ => by trivial).bind ?_
    rintro (reason | _)
    · exact keeps_throw _
    · exact keeps_pure _

theorem keeps_replaceSubmittedOperation {operation expected : OperationRecord} (h : ∀ g : Trace L, Evidence g operation expected) :
    Keeps (L := L) (replaceSubmittedOperation lib operation expected) := by
  refine (keeps_endIf _ _).bind fun _ => (keeps_ask h).bind ?_
  rintro (reason | _ | _)
  · exact keeps_throw _
  · refine (keeps_ask fun _ => by trivial).bind ?_
    rintro (reason | current)
    · exact keeps_throw _
    · exact keeps_throw _
  · exact keeps_pure _

theorem keeps_broadcastClaimedOperation (request : ResolvedPreparedTransaction) (transactionHash : String) (depth : ℕ)
    (raw : String) : Keeps (L := L) (broadcastClaimedOperation lib node (newOperation lib request transactionHash depth) raw) := by
  refine (keeps_ask fun _ => by trivial).bind ?_
  rintro (code | submittedHash)
  · exact keeps_pure _
  · dsimp only
    split
    · exact (keeps_replaceSubmittedOperation fun g => by exact ⟨rfl, rfl, .inl ⟨rfl, rfl⟩, nofun, nofun⟩).bind fun _ => keeps_pure _
    · exact (keeps_replaceSubmittedOperation fun g => by exact ⟨rfl, rfl, .inl ⟨rfl, rfl⟩, nofun, nofun⟩).bind fun _ => keeps_pure _

theorem keeps_sendResolvedTransaction (request : ResolvedPreparedTransaction) (config : BlockchainConfig) :
    Keeps (L := L) (sendResolvedTransaction lib node request config) :=
  (keeps_loadValidatedSendResolution request).bind fun pinned => (keeps_loadValidatedSendSigner request config).bind fun account =>
    (keeps_checkLiveSendState request pinned account.address).bind fun _ =>
    (keeps_claimOperation request _ _).bind fun _ => keeps_broadcastClaimedOperation request _ _ _

theorem tells_program (op : Op) : Program.Obeys permits learn (fun _ _ => True) ([] : Trace L) (program lib node op) := by
  cases op with
  | send request config =>
    exact Program.Obeys.mono (keeps_sendResolvedTransaction request config (fun _ => True) (fun _ _ _ => trivial) [] trivial)
      fun _ _ _ => trivial
  | status => exact Program.Obeys.mono (tells_operationStatus []) fun _ _ _ => trivial

end Programs

/-- The block of the receipt is on a chain that the call has observed, deep enough below the head
that it has pinned. -/
def Confirmed (g : Trace L) (operation : OperationRecord) : Prop :=
  ∃ (pinned : ℕ × String) (number : ℕ) (hash : String) (head block : Reply (ChainView L)),
    (.rpc .latestBlock, head) ∈ g ∧ readsHead head pinned ∧ (.rpc (.blockByNumber number), block) ∈ g ∧
    block.env.world.chain.hashes[number]? = some hash ∧ L.includes hash operation.transactionHash = true ∧
    operation.receiptBlockNumber = some number ∧ operation.receiptBlockHash = some hash ∧
    number ≤ pinned.1 ∧ operation.confirmationDepth ≤ pinned.1 + 1 - number

/-- What a change of the record says of the chain, with the trace of the call that makes it. -/
structure Truthful (history : List (ChainView L)) (g : Trace L) (before : Option OperationRecord) (after : OperationRecord) :
    Prop where
  final : ∀ operation, before = some operation → operation.state.isTerminal = false
  confirmed : isConfirmed after.state = true → Confirmed g after
  reorged : after.state = .reorged → Left history after.transactionHash

section Machine

variable {Thread : Type} [DecidableEq Thread]

abbrev Machine (Thread : Type) (L : Ledger) := System Thread (Shared (ChainView L)) (Caller (ChainView L))

def step (lib : BlockchainLibrary) (σ : Machine Thread L) (action : Action Thread Op (Env (ChainView L))) : Machine Thread L :=
  (callers lib node).step σ action

def StepTruthful (lib : BlockchainLibrary) (σ : Machine Thread L) : Action Thread Op (Env (ChainView L)) → Prop
  | .start t op => (step lib σ (.start t op)).shared.stored = σ.shared.stored
  | .advance t env => ∀ operation, (step lib σ (.advance t env)).shared.stored = some operation →
      σ.shared.stored ≠ some operation → Truthful σ.shared.history (σ.threads t).trace σ.shared.stored operation

omit [DecidableEq Thread] in
/-- A receipt is read of a block that is not above the pinned head, unless a block that included
the transaction has left the chain. -/
def ReceiptInTime (σ : Machine Thread L) : Action Thread Op (Env (ChainView L)) → Prop
  | .start _ _ => True
  | .advance t env => match (σ.threads t).program with
    | .step (.rpc (.transactionReceipt transactionHash)) _ => ∀ head pinned receipt number,
        (.rpc .latestBlock, head) ∈ (σ.threads t).trace → readsHead head pinned →
        readsReceipt (σ.shared.reply env) transactionHash (some receipt) → receipt.blockNumber = .value number →
        number ≤ pinned.1 ∨ Left (σ.shared.history ++ [env.world]) transactionHash
    | _ => True

end Machine

def RecordSeen (history : List (ChainView L)) (time : ℕ) (operation : OperationRecord) : Prop :=
  (operation.receiptBlockNumber = none ∧ operation.receiptBlockHash = none) ∨
    ∃ number hash, operation.receiptBlockNumber = some number ∧ operation.receiptBlockHash = some hash ∧
      Seen history time operation.transactionHash number hash

theorem RecordSeen.later {history : List (ChainView L)} {time time' : ℕ} {operation : OperationRecord}
    (h : RecordSeen history time operation) (hle : time ≤ time') : RecordSeen history time' operation := by
  refine h.imp_right ?_
  rintro ⟨number, hash, hnumber, hhash, i, view, hi, hrest⟩
  exact ⟨number, hash, hnumber, hhash, i, view, hi.trans_le hle, hrest⟩

theorem RecordSeen.extend {history : List (ChainView L)} {time : ℕ} {operation : OperationRecord}
    (h : RecordSeen history time operation) (later : List (ChainView L)) : RecordSeen (history ++ later) time operation := by
  refine h.imp_right ?_
  rintro ⟨number, hash, hnumber, hhash, hseen⟩
  exact ⟨number, hash, hnumber, hhash, hseen.extend later⟩

/-- What a caller knows of the past. -/
structure Knows (history : List (ChainView L)) (l : Caller (ChainView L)) : Prop where
  obeys : Program.Obeys permits learn (fun _ _ => True) l.trace l.program
  world : ∀ x ∈ l.trace, history[x.2.time]? = some x.2.env.world
  record : ∀ x ∈ l.trace, ∀ operation, x.2.stored = some operation → RecordSeen history x.2.time operation
  sorted : l.trace.Pairwise fun x y => y.2.time < x.2.time
  inTime : ∀ transactionHash receipt head pinned found number,
    List.Sublist [(.rpc (.transactionReceipt transactionHash), receipt), (.rpc .latestBlock, head)] l.trace →
    readsHead head pinned → readsReceipt receipt transactionHash (some found) → found.blockNumber = .value number →
    number ≤ pinned.1 ∨ Left history transactionHash

structure Sound {Thread : Type} (σ : Machine Thread L) : Prop where
  record : ∀ operation, σ.shared.stored = some operation → RecordSeen σ.shared.history σ.shared.history.length operation
  knows : ∀ t, Knows σ.shared.history (σ.threads t)

section Knowledge

variable {history : List (ChainView L)} {l : Caller (ChainView L)}

theorem knows_fresh (history : List (ChainView L)) {program : Prog (ChainView L) (Except CallResult CallResult)}
    (h : Program.Obeys permits learn (fun _ _ => True) [] program) : Knows history ⟨program, []⟩ where
  obeys := h
  world _ hx := absurd hx List.not_mem_nil
  record _ hx := absurd hx List.not_mem_nil
  sorted := .nil
  inTime _ _ _ _ _ _ hsub := absurd (List.sublist_nil.mp hsub) (List.cons_ne_nil _ _)

theorem Knows.extend (h : Knows history l) (later : List (ChainView L)) : Knows (history ++ later) l where
  obeys := h.obeys
  world x hx := getElem?_extend (h.world x hx) later
  record x hx operation hstored := (h.record x hx operation hstored).extend later
  sorted := h.sorted
  inTime transactionHash receipt head pinned found number hsub hhead hreceipt hnumber :=
    (h.inTime transactionHash receipt head pinned found number hsub hhead hreceipt hnumber).imp_right (·.extend later)

theorem Knows.time_lt (h : Knows history l) {x y : Entry L} (hsub : List.Sublist [x, y] l.trace) : y.2.time < x.2.time := by
  have hsorted := h.sorted.sublist hsub
  exact List.rel_of_pairwise_cons hsorted List.mem_cons_self

theorem Knows.loaded (h : Knows history l) {load : Reply (ChainView L)} {operation : OperationRecord}
    (hmem : (Stmt.loadOperation, load) ∈ l.trace) (hloaded : load.loaded = .ok operation) :
    RecordSeen history load.time operation := by
  refine h.record _ hmem operation ?_
  rw [Reply.loaded] at hloaded
  cases hfault : load.env.fault with
  | none =>
    rw [hfault] at hloaded
    cases hstored : load.stored with
    | none =>
      rw [hstored] at hloaded
      cases hloaded
    | some found =>
      rw [hstored] at hloaded
      cases hloaded
      rfl
  | before | after =>
    rw [hfault] at hloaded
    cases hloaded

variable {operation : OperationRecord} {pinned : ℕ × String} {observation : Observation}

theorem Knows.seen (h : Knows history l) (hobserved : Observed l.trace operation pinned observation) :
    Seen history history.length operation.transactionHash observation.number observation.hash := by
  obtain ⟨load, head, receipt, block, hsub, -, -, hreceipt, hnumber, hhash, -⟩ := hobserved
  have hmem : (Stmt.rpc (.transactionReceipt operation.transactionHash), receipt) ∈ l.trace := hsub.subset (by simp)
  have hworld := h.world _ hmem
  obtain ⟨hblock, hincludes⟩ := receipt_eq hreceipt hnumber hhash
  exact ⟨receipt.time, receipt.env.world, (List.getElem?_eq_some_iff.mp hworld).1, hworld, hblock, hincludes⟩

theorem Knows.left_of_noReceipt (h : Knows history l) (hnone : NoReceipt l.trace operation pinned)
    (hsome : operation.receiptBlockNumber.isSome) : Left history operation.transactionHash := by
  obtain ⟨load, head, receipt, hsub, hloaded, -, hreceipt⟩ := hnone
  have hlt := h.time_lt (List.Sublist.trans (by simp) hsub : List.Sublist
    [(.rpc (.transactionReceipt operation.transactionHash), receipt), (.loadOperation, load)] l.trace)
  rcases h.loaded (hsub.subset (by simp)) hloaded with ⟨hnumber, -⟩ | ⟨number, hash, -, -, hseen⟩
  · rw [hnumber] at hsome
    cases hsome
  · exact hseen.left_of_missing hlt.le (h.world _ (hsub.subset List.mem_cons_self)) (receipt_eq_none hreceipt)

theorem Knows.left_of_reorged (h : Knows history l) (hobserved : Observed l.trace operation pinned observation)
    (hreorged : receiptIsReorged operation observation pinned.1 = true) : Left history operation.transactionHash := by
  obtain ⟨load, head, receipt, block, hsub, hloaded, hhead, hreceipt, hnumber, hhash, hcanonical⟩ := hobserved
  have hreceiptMem : (Stmt.rpc (.transactionReceipt operation.transactionHash), receipt) ∈ l.trace := hsub.subset (by simp)
  have hblockMem : (Stmt.rpc (.blockByNumber observation.number), block) ∈ l.trace := hsub.subset (by simp)
  obtain ⟨hon, hincludes⟩ := receipt_eq hreceipt hnumber hhash
  have hprior : observation.number ≠ operation.receiptBlockNumber.getD observation.number ∨
      observation.hash ≠ operation.receiptBlockHash.getD observation.hash → Left history operation.transactionHash := by
    intro hne
    have hlt := h.time_lt (List.Sublist.trans (by simp) hsub : List.Sublist
      [(.rpc (.transactionReceipt operation.transactionHash), receipt), (.loadOperation, load)] l.trace)
    rcases h.loaded (hsub.subset (by simp)) hloaded with ⟨hnone, hnone'⟩ | ⟨number, hash, hsome, hsome', hseen⟩
    · simp [hnone, hnone'] at hne
    · rw [hsome, hsome', Option.getD_some, Option.getD_some] at hne
      exact hseen.left_of_other hlt.le (h.world _ hreceiptMem) hon hincludes (hne.imp Ne.symm Ne.symm)
  simp only [receiptIsReorged, Bool.or_eq_true, decide_eq_true_eq] at hreorged
  rcases hreorged with ((habove | hreplaced) | hnumber') | hhash'
  · -- above the head: only in time when a block has left
    have htwo : List.Sublist [(Stmt.rpc (.transactionReceipt operation.transactionHash), receipt), (.rpc .latestBlock, head)]
        l.trace := List.Sublist.trans (by simp) hsub
    rcases h.inTime _ _ _ _ _ _ htwo hhead hreceipt hnumber with hle | hleft
    · omega
    · exact hleft
  · have hlt := h.time_lt (List.Sublist.trans (by simp) hsub : List.Sublist
      [(.rpc (.blockByNumber observation.number), block), (.rpc (.transactionReceipt operation.transactionHash), receipt)] l.trace)
    refine left_of_replaced hlt (h.world _ hreceiptMem) (h.world _ hblockMem) hon hincludes fun hsame => hreplaced ?_
    rw [canonical_eq hcanonical, hsame]
    rfl
  · exact hprior (.inl (Ne.symm hnumber'))
  · exact hprior (.inr (Ne.symm hhash'))

theorem Evidence.isTrue {g : Trace L} {updated expected : OperationRecord} (hevidence : Evidence g updated expected)
    (hconfirmed : isConfirmed updated.state = true) : Confirmed g updated := by
  obtain ⟨pinned, observation, hobserved, hnumber, hhash, hcanonical, hle, hdepth⟩ := hevidence.confirmed hconfirmed
  obtain ⟨load, head, receipt, block, hsub, -, hhead, hreceipt, hnumber', hhash', hblock⟩ := hobserved
  obtain ⟨-, hincludes⟩ := receipt_eq hreceipt hnumber' hhash'
  refine ⟨pinned, observation.number, observation.hash, head, block, hsub.subset (by simp), hhead, hsub.subset (by simp),
    ?_, hevidence.transactionHash ▸ hincludes, hnumber, hhash, hle, hdepth⟩
  have hfound := canonical_eq hblock
  rw [hcanonical] at hfound
  obtain ⟨hash, hhash, hsame⟩ := Option.map_eq_some_iff.mp hfound.symm
  cases hsame
  exact hhash

theorem Evidence.recordSeen {updated expected : OperationRecord} (hevidence : Evidence l.trace updated expected)
    (h : Knows history l) (hexpected : RecordSeen history history.length expected) :
    RecordSeen history history.length updated := by
  rcases hevidence.block with ⟨hnumber, hhash⟩ | ⟨pinned, observation, hobserved, hnumber, hhash⟩
  · rwa [RecordSeen, hnumber, hhash, hevidence.transactionHash]
  · exact .inr ⟨_, _, hnumber, hhash, hevidence.transactionHash ▸ h.seen hobserved⟩

end Knowledge

/-- A record is stored by a link where there is none, and by a replacement of the one that is expected. -/
theorem store_change {c : Stmt} {fault : StorageFault} {stored : Option OperationRecord} {operation : OperationRecord}
    (h : c.store fault stored = some operation) (hne : stored ≠ some operation) :
    (c = .link operation ∧ stored = none) ∨ ∃ expected, c = .replace operation expected ∧ stored = some expected := by
  cases c with
  | link new =>
    rw [Stmt.store] at h
    split at h
    · exact absurd h hne
    · cases stored with
      | none =>
        cases h
        exact .inl ⟨rfl, rfl⟩
      | some found =>
        cases h
        exact absurd rfl hne
  | replace new expected =>
    rw [Stmt.store] at h
    split at h
    · next hreplaced =>
      cases h
      exact .inr ⟨expected, rfl, hreplaced.2⟩
    · exact absurd h hne
  | loadOperation | loadPreparation | loadResolution | loadAccount | rpc | syncDirectory => exact absurd h hne

section Steps

variable {Thread : Type} {σ : Machine Thread L} {t : Thread} {env : Env (ChainView L)} {c : Stmt}
  {next : Reply (ChainView L) → Prog (ChainView L) (Except CallResult CallResult)}

theorem Sound.permitted (h : Sound σ) (hprogram : (σ.threads t).program = .step c next) :
    permits (σ.threads t).trace c ∧
      ∀ r, Program.Obeys permits learn (fun _ _ => True) ((c, r) :: (σ.threads t).trace) (next r) := by
  have hobeys := (h.knows t).obeys
  rwa [hprogram] at hobeys

theorem Sound.truthful (h : Sound σ) (hprogram : (σ.threads t).program = .step c next) {operation : OperationRecord}
    (hstored : c.store env.fault σ.shared.stored = some operation) (hne : σ.shared.stored ≠ some operation) :
    Truthful σ.shared.history (σ.threads t).trace σ.shared.stored operation := by
  obtain ⟨hpermits, -⟩ := h.permitted hprogram
  rcases store_change hstored hne with ⟨rfl, hnone⟩ | ⟨expected, rfl, hexpected⟩
  · have hstate : operation.state = .broadcastUnknown := hpermits.1
    refine ⟨?_, ?_, ?_⟩
    · rw [hnone]
      intro found hfound
      cases hfound
    · rw [hstate]
      nofun
    · rw [hstate]
      nofun
  · have hevidence : Evidence (σ.threads t).trace operation expected := hpermits
    refine ⟨?_, hevidence.isTrue, fun hreorged => ?_⟩
    · rintro found hfound
      obtain rfl : expected = found := Option.some.inj (hexpected.symm.trans hfound)
      exact hevidence.isOpen
    · rw [hevidence.transactionHash]
      rcases hevidence.reorged hreorged with ⟨pinned, hnone, hsome⟩ | ⟨pinned, observation, hobserved, hreorged⟩
      · exact (h.knows t).left_of_noReceipt hnone hsome
      · exact (h.knows t).left_of_reorged hobserved hreorged

theorem Sound.recordSeen (h : Sound σ) (hprogram : (σ.threads t).program = .step c next) {operation : OperationRecord}
    (hstored : c.store env.fault σ.shared.stored = some operation) :
    RecordSeen σ.shared.history σ.shared.history.length operation := by
  obtain ⟨hpermits, -⟩ := h.permitted hprogram
  by_cases hsame : σ.shared.stored = some operation
  · exact h.record operation hsame
  · rcases store_change hstored hsame with ⟨rfl, -⟩ | ⟨expected, rfl, hexpected⟩
    · exact .inl hpermits.2
    · exact Evidence.recordSeen hpermits (h.knows t) (h.record expected hexpected)

theorem Sound.own (h : Sound σ) (hprogram : (σ.threads t).program = .step c next)
    (hintime : ReceiptInTime σ (.advance t env)) :
    Knows (σ.shared.history ++ [env.world])
      ⟨next (σ.shared.reply env), (c, σ.shared.reply env) :: (σ.threads t).trace⟩ := by
  obtain ⟨-, hnext⟩ := h.permitted hprogram
  have hold := (h.knows t).extend [env.world]
  refine ⟨hnext _, ?_, ?_, ?_, ?_⟩
  · intro x hx
    rcases List.mem_cons.mp hx with rfl | hx
    · simp [Shared.reply]
    · exact hold.world x hx
  · intro x hx operation hoperation
    rcases List.mem_cons.mp hx with rfl | hx
    · exact (h.record operation hoperation).extend [env.world]
    · exact hold.record x hx operation hoperation
  · refine .cons (fun y hy => ?_) hold.sorted
    exact (List.getElem?_eq_some_iff.mp ((h.knows t).world y hy)).1
  · intro transactionHash receipt head pinned found number hsub hhead hreceipt hnumber
    rcases hsub with _ | ⟨_, hsub⟩ | ⟨_, hsub⟩
    · exact hold.inTime transactionHash receipt head pinned found number hsub hhead hreceipt hnumber
    · rw [ReceiptInTime, hprogram] at hintime
      exact hintime head pinned found number (List.singleton_sublist.mp hsub) hhead hreceipt hnumber

variable [DecidableEq Thread] {lib : BlockchainLibrary}

theorem step_advance (hprogram : (σ.threads t).program = .step c next) :
    step lib σ (.advance t env) = σ.become t (σ.shared.apply env c,
      ⟨next (σ.shared.reply env), (c, σ.shared.reply env) :: (σ.threads t).trace⟩) := by
  rw [step, Threads.step]
  dsimp only [callers]
  rw [hprogram]

theorem step_done {a : Except CallResult CallResult} (hprogram : (σ.threads t).program = .done a) :
    step lib σ (.advance t env) = σ := by
  rw [step, Threads.step]
  dsimp only [callers]
  rw [hprogram]
  simp [System.become]

theorem Sound.step (h : Sound σ) {action : Action Thread Op (Env (ChainView L))} (hintime : ReceiptInTime σ action) :
    Sound (step lib σ action) := by
  cases action with
  | start t op =>
    rw [OperationStatuses.step, Threads.step]
    split
    · refine ⟨h.record, fun t' => ?_⟩
      rw [threads_become]
      split
      · exact knows_fresh _ (tells_program op)
      · exact h.knows t'
    · exact h
  | advance t env =>
    cases hprogram : (σ.threads t).program with
    | done a =>
      rw [step_done hprogram]
      exact h
    | step c next =>
      rw [step_advance hprogram]
      refine ⟨fun operation hoperation => ?_, fun t' => ?_⟩
      · have hseen := (h.recordSeen hprogram hoperation).extend [env.world]
        exact hseen.later (by simp [Shared.apply])
      · rw [threads_become]
        split
        · exact h.own hprogram hintime
        · exact (h.knows t').extend [env.world]

theorem Sound.stepTruthful (h : Sound σ) (action : Action Thread Op (Env (ChainView L))) : StepTruthful lib σ action := by
  cases action with
  | start t op =>
    rw [StepTruthful, OperationStatuses.step, Threads.step]
    split <;> rfl
  | advance t env =>
    intro operation hoperation hne
    cases hprogram : (σ.threads t).program with
    | done a =>
      rw [step_done hprogram] at hoperation
      exact absurd hoperation hne
    | step c next =>
      rw [step_advance hprogram] at hoperation
      exact h.truthful hprogram hoperation hne

omit [DecidableEq Thread] in
theorem sound_initial : Sound (initial Thread (ChainView L)) := by
  refine ⟨?_, fun _ => knows_fresh _ trivial⟩
  intro operation hoperation
  cases hoperation

/-- **While receipts are read in time, every status is true of the chain.** -/
theorem statuses_truthful (lib : BlockchainLibrary) (actions : List (Action Thread Op (Env (ChainView L))))
    (h : Guarded (step lib) ReceiptInTime (initial Thread (ChainView L)) actions) :
    Guarded (step lib) (StepTruthful lib) (initial Thread (ChainView L)) actions :=
  h.weaken (I := Sound) (fun _ _ hsound hintime => hsound.step hintime) (fun _ action hsound _ => hsound.stepTruthful action)
    sound_initial

omit [DecidableEq Thread] in
/-- The chain has not grown since the caller read its head. -/
def HeadCurrent (σ : Machine Thread L) : Action Thread Op (Env (ChainView L)) → Prop
  | .start _ _ => True
  | .advance t env => ∀ x ∈ (σ.threads t).trace, x.1 = .rpc .latestBlock →
      env.world.chain.hashes.length ≤ x.2.env.world.chain.hashes.length

instance (σ : Machine Thread L) (action : Action Thread Op (Env (ChainView L))) : Decidable (HeadCurrent σ action) := by
  cases action <;> dsimp only [HeadCurrent] <;> infer_instance

omit [DecidableEq Thread] in
theorem receiptInTime_of_headCurrent {action : Action Thread Op (Env (ChainView L))} (hcurrent : HeadCurrent σ action) :
    ReceiptInTime σ action := by
  cases action with
  | start t op => trivial
  | advance t env =>
    rw [ReceiptInTime]
    split
    · intro head pinned receipt number hmem hhead hreceipt hnumber
      left
      obtain ⟨hash, hnumber', -, hblock, -⟩ := receipt_block hreceipt
      cases hnumber'.symm.trans hnumber
      have hlt := (List.getElem?_eq_some_iff.mp hblock).1
      have hlast := latest_eq hhead
      have hle : (σ.shared.reply env).env.world.chain.hashes.length ≤ head.env.world.chain.hashes.length :=
        hcurrent _ hmem rfl
      omega
    · trivial

end Steps

def twoBlocks : Ledger where
  height hash := if hash = "b" then 1 else 0
  inclusions hash := if hash = "b" then [⟨"h", 1, .absent, .absent⟩] else []
  baseFeePerGas _ := .absent

theorem eq_of_includes {hash transactionHash : String} (h : twoBlocks.includes hash transactionHash = true) : hash = "b" := by
  by_contra hne
  simp [Ledger.includes, twoBlocks, hne] at h

def firstBlock : Chain twoBlocks where
  hashes := ["g"]
  heights number hash h := by
    cases number with
    | zero =>
      cases h
      rfl
    | succ number => cases h
  once a _ b _ _ ha hb := (eq_of_includes ha).trans (eq_of_includes hb).symm

def bothBlocks : Chain twoBlocks where
  hashes := ["g", "b"]
  heights number hash h := by
    rcases number with _ | _ | number
    · cases h
      rfl
    · cases h
      rfl
    · cases h
  once a _ b _ _ ha hb := (eq_of_includes ha).trans (eq_of_includes hb).symm

def plainLibrary : BlockchainLibrary where
  matchesPreparation _ _ := true
  functionBySignature _ _ := .ok .null
  encodeCall _ _ := .ok ""
  decodeValues _ _ := .ok []
  operationDigest _ := ""
  keccak raw := raw
  recordSize _ := 0
  resultSize _ := 0

def preparedTransaction : ResolvedPreparedTransaction where
  preparationDigest := "p"
  resolutionDigest := "r"
  signerAddress := "a"
  transaction := ⟨false, 0, "a", 0, 0, 0, 0, 0, ""⟩
  returnData := ""
  functionSignature := ""
  functionAbi := .null
  resolvedContext := .null
  postconditions := []

def otherAnswers : RpcCall → Answer
  | .resolution => .block 0 "g" .absent
  | .balance _ | .transactionCount _ | .gasPrice => .quantity 0
  | .sendRawTransaction raw => .data raw
  | .call _ _ => .data ""
  | _ => .null

def onChain (chain : Chain twoBlocks) : Env (ChainView twoBlocks) where
  world := ⟨chain, fun _ => none, otherAnswers⟩
  preparation := some preparedTransaction
  resolution := .ok .null
  account := some ⟨"a", fun _ => "h"⟩

def beforeReplacement : List (Action Unit Op (Env (ChainView twoBlocks))) :=
  Action.start () (Op.send preparedTransaction ⟨0, 1⟩) :: List.replicate 14 (Action.advance () (onChain firstBlock)) ++
    Action.start () Op.status :: List.replicate 6 (Action.advance () (onChain firstBlock)) ++
    List.replicate 2 (Action.advance () (onChain bothBlocks))

/-- The transaction is confirmed by a block, which is then replaced. -/
def reorganisedRun : List (Action Unit Op (Env (ChainView twoBlocks))) :=
  Action.start () (Op.send preparedTransaction ⟨0, 2⟩) :: List.replicate 14 (Action.advance () (onChain firstBlock)) ++
    Action.start () Op.status :: List.replicate 10 (Action.advance () (onChain firstBlock)) ++
    Action.start () Op.status :: List.replicate 10 (Action.advance () (onChain bothBlocks)) ++
    Action.start () Op.status :: List.replicate 10 (Action.advance () (onChain firstBlock))

def stateAfter (n : ℕ) : Option OperationState :=
  (run (step plainLibrary) (initial Unit (ChainView twoBlocks)) (reorganisedRun.take n)).shared.stored.map (·.state)

theorem reorganisedRun_truthful :
    Guarded (step plainLibrary) (StepTruthful plainLibrary) (initial Unit (ChainView twoBlocks)) reorganisedRun ∧
      [15, 26, 37, 48].map stateAfter = [some .pending, some .pending, some .confirming, some .reorged] := by
  have hcurrent : Guarded (step plainLibrary) HeadCurrent (initial Unit (ChainView twoBlocks)) reorganisedRun := by decide +kernel
  exact ⟨statuses_truthful plainLibrary reorganisedRun 
    (hcurrent.weaken (I := fun _ => True) (fun _ _ _ _ => trivial) (fun _ _ _ h => receiptInTime_of_headCurrent h) trivial), by decide +kernel⟩

def pinned : Machine Unit twoBlocks := run (step plainLibrary) (initial Unit (ChainView twoBlocks)) beforeReplacement

theorem pinned_chains : pinned.shared.history.map (·.chain.hashes) = List.replicate 20 ["g"] ++ List.replicate 2 ["g", "b"] := by
  decide +kernel

theorem not_left : ¬ Left pinned.shared.history "h" := by
  rintro ⟨hash, i, j, before, after, hij, hi, hj, hmem, hincludes, hnot⟩
  obtain rfl := eq_of_includes hincludes
  have hchains : ∀ (k : ℕ) (view : ChainView twoBlocks), pinned.shared.history[k]? = some view →
      (List.replicate 20 ["g"] ++ List.replicate 2 ["g", "b"])[k]? = some view.chain.hashes := by
    intro k view hk
    rw [← pinned_chains, List.getElem?_map, hk]
    rfl
  have hi := hchains i before hi
  have hj := hchains j after hj
  have hlate : 20 ≤ i := by
    by_contra hearly
    rw [List.getElem?_append_left (by simpa using hearly), List.getElem?_replicate, if_pos (by omega)] at hi
    rw [← Option.some.inj hi] at hmem
    exact absurd hmem (by decide)
  rw [List.getElem?_append_right (by simpa using hlate.trans hij.le), List.getElem?_replicate] at hj
  split at hj
  · rw [← Option.some.inj hj] at hnot
    exact hnot (by decide)
  · cases hj

/-- The operation becomes reorged although no block has left the chain. -/
theorem appended_block_reorged : ¬ ∀ actions : List (Action Unit Op (Env (ChainView twoBlocks))),
    Guarded (step plainLibrary) (StepTruthful plainLibrary) (initial Unit (ChainView twoBlocks)) actions := by
  intro h
  have hlast := (guarded_append.mp (h (beforeReplacement ++ [.advance () (onChain bothBlocks)]))).2
  cases hlast with
  | cons head _ =>
    have hreorged : ((step plainLibrary pinned (.advance () (onChain bothBlocks))).shared.stored.map fun operation =>
        (operation.state, operation.transactionHash)) = some (.reorged, "h") := by decide +kernel
    obtain ⟨operation, hoperation, hstate⟩ := Option.map_eq_some_iff.mp hreorged
    have hbefore : (pinned.shared.stored.map (·.state)) = some .pending := by decide +kernel
    have hne : pinned.shared.stored ≠ some operation := by
      intro hsame
      rw [hsame] at hbefore
      have hpending : operation.state = .pending := Option.some.inj hbefore
      rw [hpending] at hstate
      cases hstate
    have hleft := (head operation hoperation hne).reorged (congrArg Prod.fst hstate)
    rw [show operation.transactionHash = "h" from congrArg Prod.snd hstate] at hleft
    exact not_left hleft

end OpenMinion.OperationStatuses
