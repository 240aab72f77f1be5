import OpenMinion.EarlyPrograms
import OpenMinion.JsonValues

/-!
# Blockchain operations by statements

The submission of a transaction and the inspection of its status, cut where the code goes to the files of the session
or to the RPC endpoint, which answers as a node in the world of the moment.
-/
namespace OpenMinion.BlockchainOperations
open EarlyPrograms JsonValues StatementPrograms

inductive OperationState where
  | broadcastUnknown
  | pending
  | confirming
  | succeeded
  | reverted
  | reorged
  | postconditionFailed
  deriving DecidableEq

def OperationState.isTerminal : OperationState → Bool
  | .succeeded | .reverted | .reorged | .postconditionFailed => true
  | .broadcastUnknown | .pending | .confirming => false

structure EqualityPostcondition where
  functionSignature : String
  arguments : List Json
  expectedResult : List Json
  deriving DecidableEq

structure PostconditionResult where
  postcondition : EqualityPostcondition
  actualResult : Option (List Json)
  isMatched : Bool
  errorCode : Option String
  deriving DecidableEq

structure OperationRecord where
  preparationDigest : String
  resolutionDigest : String
  operationDigest : String
  transactionHash : String
  state : OperationState
  receiptBlockNumber : Option ℕ
  receiptBlockHash : Option String
  receiptStatus : Option ℕ
  confirmations : ℕ
  confirmationDepth : ℕ
  gasUsed : Option ℕ
  effectiveGasPriceWei : Option ℕ
  postconditions : List EqualityPostcondition
  postconditionResults : List PostconditionResult
  lastErrorCode : Option String
  deriving DecidableEq

structure Transaction where
  isEip1559 : Bool
  nonce : ℕ
  fromAddress : String
  valueWei : ℕ
  maxTotalFeeWei : ℕ
  maxPriorityFeePerGasWei : ℕ
  maxFeePerGasWei : ℕ
  gasPriceWei : ℕ
  callData : String
  deriving DecidableEq

structure ResolvedPreparedTransaction where
  preparationDigest : String
  resolutionDigest : String
  signerAddress : String
  transaction : Transaction
  returnData : String
  functionSignature : String
  functionAbi : Json
  resolvedContext : Json
  postconditions : List EqualityPostcondition
  deriving DecidableEq

structure BlockchainConfig where
  maxTotalFeeWei : ℕ
  confirmationDepth : ℕ

inductive Quantity where
  | absent
  | malformed
  | value (n : ℕ)
  deriving DecidableEq

structure Receipt where
  transactionHash : String
  blockNumber : Quantity
  /-- `none` when it is no hash. -/
  blockHash : Option String
  status : Quantity
  gasUsed : Quantity
  effectiveGasPrice : Quantity
  deriving DecidableEq

inductive RpcCall where
  /-- The calls of `_observe_chain_identity`. -/
  | chainIdentity
  /-- The calls of `revalidate_resolution`, which end with the pinned block. -/
  | resolution
  | latestBlock
  | blockByNumber (number : ℕ)
  | transactionReceipt (transactionHash : String)
  | call (callData : String) (number : ℕ)
  | balance (address : String)
  | transactionCount (address : String)
  | maxPriorityFeePerGas
  | gasPrice
  | sendRawTransaction (raw : String)
  deriving DecidableEq

inductive Answer where
  | null
  | quantity (n : ℕ)
  | data (hex : String)
  | block (number : ℕ) (hash : String) (baseFeePerGas : Quantity)
  | receipt (receipt : Receipt)

/-- The answers in a world; a `ResolutionFailure` has a code. -/
abbrev Node (World : Type) := World → RpcCall → Except String Answer

namespace Answer

def toQuantity : Answer → Option ℕ
  | .quantity n => some n
  | _ => none

def toData : Answer → Option String
  | .data hex => some hex
  | _ => none

def toBlock : Answer → Option (ℕ × String)
  | .block number hash _ => some (number, hash)
  | _ => none

def toFeeBlock : Answer → Option ((ℕ × String) × Quantity)
  | .block number hash baseFee => some ((number, hash), baseFee)
  | _ => none

/-- `None` for no receipt. -/
def toReceipt : Answer → Option (Option Receipt)
  | .null => some none
  | .receipt found => some (some found)
  | _ => none

/-- `None` for no block, which is read as number -1. -/
def toCanonicalBlock : Answer → Option (Option (ℕ × String))
  | .null => some none
  | .block number hash _ => some (some (number, hash))
  | _ => none

def toAny (_ : Answer) : Option Unit := some ()

end Answer

inductive Stmt where
  | loadOperation
  | loadPreparation
  | loadResolution (digest : String)
  | loadAccount
  | rpc (call : RpcCall)
  /-- The temporary file and `os.link`. -/
  | link (operation : OperationRecord)
  /-- `_fsync_directory` after the link. -/
  | syncDirectory
  /-- `replace_operation_record` under its lock. -/
  | replace (operation expected : OperationRecord)
  deriving DecidableEq

inductive Reason where
  | unavailable
  | sizeLimit
  | invalid
  deriving DecidableEq

inductive StorageFault where
  | none
  | before (reason : Reason)
  | after (reason : Reason)
  deriving DecidableEq

structure Account where
  address : String
  sign : Transaction → String

structure Env (World : Type) where
  world : World
  fault : StorageFault := .none
  /-- The stored preparation; `none` when it cannot be loaded. -/
  preparation : Option ResolvedPreparedTransaction := none
  /-- The stored resolution, or the code of the error. -/
  resolution : Except String Json := .error "RESOLUTION_UNAVAILABLE"
  account : Option Account := none

/-- What a statement finds, with the number of statements before it, which no program reads. -/
structure Reply (World : Type) where
  stored : Option OperationRecord
  env : Env World
  time : ℕ

section
variable {World : Type}

def StorageFault.isBefore : StorageFault → Bool
  | .before _ => true
  | _ => false

namespace Reply

/-- `load_operation_record`. -/
def loaded (r : Reply World) : Except Reason OperationRecord :=
  match r.env.fault with
  | .none => match r.stored with
    | some operation => .ok operation
    | none => .error .unavailable
  | .before reason | .after reason => .error reason

/-- The result of `os.link`; false when the target exists. -/
def linked (r : Reply World) : Except Reason Bool :=
  match r.env.fault with
  | .none => .ok r.stored.isNone
  | .before reason | .after reason => .error reason

def synced (r : Reply World) : Except Reason Unit :=
  match r.env.fault with
  | .none => .ok ()
  | .before reason | .after reason => .error reason

/-- `replace_operation_record`; false when another record is stored. -/
def replaced (expected : OperationRecord) (r : Reply World) : Except Reason Bool :=
  match r.env.fault with
  | .before reason => .error reason
  | .none => match r.stored with
    | none => .error .unavailable
    | some operation => .ok (operation = expected)
  | .after reason => .error reason

end Reply

def Stmt.store (fault : StorageFault) (stored : Option OperationRecord) : Stmt → Option OperationRecord
  | .link operation => if fault.isBefore then stored else some (stored.getD operation)
  | .replace operation expected => if fault.isBefore = false ∧ stored = some expected then some operation else stored
  | _ => stored

inductive CallResult where
  /-- The result of `operation_status`. -/
  | status (operation : OperationRecord)
  /-- The result of a submission. -/
  | sent (state : OperationState) (error : Option String) (transactionHash : String)
  /-- A submission that ends before its broadcast. -/
  | failed (error : String)
  | error (code : String)

abbrev Prog (World : Type) := Program Stmt (Reply World)

abbrev CallM (World : Type) := EarlyM Stmt (Reply World) CallResult

/-- What the code uses of ABI encoding, hashing, JSON texts and the facts of a resolution. -/
structure BlockchainLibrary where
  matchesPreparation : Json → Json → Bool
  functionBySignature : Json → String → Except String Json
  encodeCall : Json → List Json → Except String String
  decodeValues : Json → String → Except String (List Json)
  operationDigest : OperationRecord → String
  keccak : String → String
  recordSize : OperationRecord → ℕ
  resultSize : OperationRecord → ℕ

def maxOperationRecordBytes : ℕ := 64 * 1024

def look {α : Type} (c : Stmt) (f : Reply World → α) : CallM World α := ask c fun r => .ok (f r)

/-- The call ends here when `p` holds. -/
def endIf (p : Prop) [Decidable p] (result : CallResult) : CallM World Unit := if p then throw result else pure ()

variable (lib : BlockchainLibrary) (node : Node World)

/-- The answer of a call, or the code of its `ResolutionFailure`. -/
def answered {α : Type} (call : RpcCall) (decode : Answer → Option α) (r : Reply World) : Except String α :=
  match node r.env.world call with
  | .error code => .error code
  | .ok answer => match decode answer with
    | some a => .ok a
    | none => .error "RPC_UNAVAILABLE"

def rpcCall {α : Type} (call : RpcCall) (decode : Answer → Option α) (failure : String → CallResult) : CallM World α :=
  ask (.rpc call) fun r => match answered node call decode r with
    | .error code => .error (failure code)
    | .ok a => .ok a

/-- `_recheck_pinned_block`: whether the pinned block is still there. -/
def recheckPinnedBlock (pinned : ℕ × String) : CallM World (Except String Unit) :=
  look (.rpc (.blockByNumber pinned.1)) fun r => match answered node (.blockByNumber pinned.1) Answer.toBlock r with
    | .error code => .error code
    | .ok observed => if observed = pinned then .ok () else .error "STALE_BLOCK"

def loadValidatedSendResolution (request : ResolvedPreparedTransaction) : CallM World (ℕ × String) := do
  let stored ← look .loadPreparation (·.env.preparation)
  endIf (stored ≠ some request) (.failed "STALE_PREPARATION")
  let record ← ask (.loadResolution request.resolutionDigest) fun r => match r.env.resolution with
    | .error code => .error (.failed code)
    | .ok record => .ok record
  let pinned ← rpcCall node .resolution Answer.toBlock .failed
  match lib.functionBySignature record request.functionSignature with
  | .error code => throw (.failed code)
  | .ok function =>
    endIf (!lib.matchesPreparation record request.resolvedContext || function != request.functionAbi) (.failed "STALE_RESOLUTION")
    return pinned

def loadValidatedSendSigner (request : ResolvedPreparedTransaction) (config : BlockchainConfig) : CallM World Account := do
  match ← look .loadAccount (·.env.account) with
  | none => throw (.failed "SIGNER_UNAVAILABLE")
  | some account =>
    endIf (config.maxTotalFeeWei < request.transaction.maxTotalFeeWei) (.failed "FEE_CAP_EXCEEDED")
    endIf (account.address ≠ request.signerAddress ∨ account.address ≠ request.transaction.fromAddress) (.failed "SIGNER_MISMATCH")
    return account

def transactionFeeIsStale (transaction : Transaction) (baseFee : Quantity) : CallM World Bool := do
  if transaction.isEip1559 then
    match baseFee with
    | .absent => return true
    | .malformed => throw (.failed "RPC_UNAVAILABLE")
    | .value baseFee =>
      let priorityFee ← rpcCall node .maxPriorityFeePerGas Answer.toQuantity .failed
      return decide (transaction.maxPriorityFeePerGasWei < priorityFee ∨ transaction.maxFeePerGasWei < baseFee + priorityFee)
  else
    let liveGasPrice ← rpcCall node .gasPrice Answer.toQuantity .failed
    return decide (baseFee ≠ .absent ∨ transaction.gasPriceWei < liveGasPrice)

/-- `_live_send_state_error`, which ends the submission with the error. -/
def checkLiveSendState (request : ResolvedPreparedTransaction) (pinned : ℕ × String) (sender : String) :
    CallM World Unit := do
  let balance ← rpcCall node (.balance sender) Answer.toQuantity .failed
  let nonce ← rpcCall node (.transactionCount sender) Answer.toQuantity .failed
  endIf (nonce ≠ request.transaction.nonce) (.failed "STALE_PREPARATION")
  endIf (balance < request.transaction.valueWei + request.transaction.maxTotalFeeWei) (.failed "INSUFFICIENT_FUNDS")
  let feeBlock ← rpcCall node (.blockByNumber pinned.1) Answer.toFeeBlock .failed
  endIf (feeBlock.1 ≠ pinned) (.failed "STALE_BLOCK")
  endIf (← transactionFeeIsStale node request.transaction feeBlock.2) (.failed "STALE_PREPARATION")
  let simulated ← rpcCall node (.call request.transaction.callData pinned.1) Answer.toData .failed
  endIf (simulated ≠ request.returnData) (.failed "STALE_PREPARATION")
  match ← recheckPinnedBlock node pinned with
  | .error code => throw (.failed code)
  | .ok () => return ()

def newOperation (request : ResolvedPreparedTransaction) (transactionHash : String) (confirmationDepth : ℕ) : OperationRecord :=
  let operation : OperationRecord :=
    { preparationDigest := request.preparationDigest
      resolutionDigest := request.resolutionDigest
      operationDigest := ""
      transactionHash := transactionHash
      state := .broadcastUnknown
      receiptBlockNumber := none
      receiptBlockHash := none
      receiptStatus := none
      confirmations := 0
      confirmationDepth := confirmationDepth
      gasUsed := none
      effectiveGasPriceWei := none
      postconditions := request.postconditions
      postconditionResults := []
      lastErrorCode := none }
  { operation with operationDigest := lib.operationDigest operation }

/-- `_claim_operation_error`, which ends the submission with the error. -/
def claimOperation (operation : OperationRecord) : CallM World Unit := do
  endIf (maxOperationRecordBytes < lib.recordSize operation) (.failed "OPERATION_UNAVAILABLE")
  match ← look (.link operation) (·.linked) with
  | .error _ => throw (.failed "OPERATION_UNAVAILABLE")
  | .ok false => throw (.failed "OPERATION_INVALID")
  | .ok true =>
    match ← look .syncDirectory (·.synced) with
    | .error _ => throw (.failed "OPERATION_UNAVAILABLE")
    | .ok () => return ()

def replaceSubmittedOperation (operation expected : OperationRecord) : CallM World Unit := do
  let unavailable : CallResult := .sent .broadcastUnknown (some "OPERATION_UNAVAILABLE") operation.transactionHash
  endIf (maxOperationRecordBytes < lib.recordSize operation) unavailable
  match ← look (.replace operation expected) (·.replaced expected) with
  | .error _ => throw unavailable
  | .ok true => return ()
  | .ok false =>
    match ← look .loadOperation (·.loaded) with
    | .error _ => throw unavailable
    | .ok current => throw (.sent current.state none operation.transactionHash)

def broadcastClaimedOperation (operation : OperationRecord) (raw : String) : CallM World CallResult := do
  match ← look (.rpc (.sendRawTransaction raw)) (answered node (.sendRawTransaction raw) Answer.toData) with
  | .error _ => return .sent .broadcastUnknown (some "BROADCAST_UNKNOWN") operation.transactionHash
  | .ok submittedHash =>
    if submittedHash ≠ operation.transactionHash then
      replaceSubmittedOperation lib { operation with lastErrorCode := some "OPERATION_INVALID" } operation
      return .sent .broadcastUnknown (some "OPERATION_INVALID") operation.transactionHash
    else
      replaceSubmittedOperation lib { operation with state := .pending } operation
      return .sent .pending none operation.transactionHash

def sendResolvedTransaction (request : ResolvedPreparedTransaction) (config : BlockchainConfig) : CallM World CallResult := do
  let pinned ← loadValidatedSendResolution lib node request
  let account ← loadValidatedSendSigner request config
  checkLiveSendState node request pinned account.address
  let raw := account.sign request.transaction
  let operation := newOperation lib request (lib.keccak raw) config.confirmationDepth
  claimOperation lib operation
  broadcastClaimedOperation lib node operation raw

def operationResult (operation : OperationRecord) : CallResult :=
  if maxOperationRecordBytes < lib.resultSize operation then .error "RESULT_TOO_LARGE" else .status operation

def persistOperation (operation expected : OperationRecord) : CallM World CallResult := do
  let failure (reason : Reason) : CallResult :=
    .error (if reason = .sizeLimit then "RESULT_TOO_LARGE" else "OPERATION_UNAVAILABLE")
  endIf (maxOperationRecordBytes < lib.recordSize operation) (failure .sizeLimit)
  match ← look (.replace operation expected) (·.replaced expected) with
  | .error reason => throw (failure reason)
  | .ok true => return operationResult lib operation
  | .ok false =>
    match ← look .loadOperation (·.loaded) with
    | .error reason => throw (failure reason)
    | .ok current => return operationResult lib current

def loadOperationStatusFacts : CallM World (OperationRecord × Json × (ℕ × String)) := do
  let operation ← ask .loadOperation fun r => match r.loaded with
    | .error .unavailable => .error (.error "OPERATION_UNAVAILABLE")
    | .error .sizeLimit => .error (.error "RESULT_TOO_LARGE")
    | .error .invalid => .error (.error "OPERATION_INVALID")
    | .ok operation => .ok operation
  let preparation ← ask .loadPreparation fun r => match r.env.preparation with
    | none => .error (.error "OPERATION_INVALID")
    | some preparation => .ok preparation
  let record ← ask (.loadResolution operation.resolutionDigest) fun r => match r.env.resolution with
    | .error code => .error (.error code)
    | .ok record => .ok record
  rpcCall node .chainIdentity Answer.toAny .error
  let pinned ← rpcCall node .latestBlock Answer.toBlock .error
  match ← recheckPinnedBlock node pinned with
  | .error code => throw (.error code)
  | .ok () =>
    endIf (preparation.resolutionDigest ≠ operation.resolutionDigest) (.error "OPERATION_INVALID")
    endIf (!lib.matchesPreparation record preparation.resolvedContext) (.error "STALE_RESOLUTION")
    return (operation, record, pinned)

structure Observation where
  receipt : Receipt
  number : ℕ
  hash : String
  status : ℕ
  canonical : Option (ℕ × String)

/-- `none` when there is no receipt. -/
def observeOperationReceipt (operation : OperationRecord) : CallM World (Option Observation) := do
  match ← rpcCall node (.transactionReceipt operation.transactionHash) Answer.toReceipt .error with
  | none => return none
  | some receipt =>
    endIf (receipt.transactionHash ≠ operation.transactionHash) (.error "OPERATION_INVALID")
    match receipt.blockNumber, receipt.blockHash, receipt.status with
    | .value number, some hash, .value status =>
      endIf (status ≠ 0 ∧ status ≠ 1) (.error "RPC_UNAVAILABLE")
      let canonical ← rpcCall node (.blockByNumber number) Answer.toCanonicalBlock .error
      return some ⟨receipt, number, hash, status, canonical⟩
    | _, _, _ => throw (.error "RPC_UNAVAILABLE")

def missingReceipt (operation : OperationRecord) : OperationRecord :=
  if operation.receiptBlockNumber.isSome then { operation with state := .reorged, lastErrorCode := none }
  else if operation.state ≠ .broadcastUnknown then { operation with state := .pending, lastErrorCode := none }
  else operation

def receiptIsReorged (operation : OperationRecord) (observation : Observation) (headNumber : ℕ) : Bool :=
  decide (headNumber < observation.number) || decide (observation.canonical ≠ some (observation.number, observation.hash)) ||
    decide (operation.receiptBlockNumber.getD observation.number ≠ observation.number) ||
    decide (operation.receiptBlockHash.getD observation.hash ≠ observation.hash)

def optionalQuantity : Quantity → Except CallResult (Option ℕ)
  | .absent => .ok none
  | .malformed => .error (.error "RPC_UNAVAILABLE")
  | .value n => .ok (some n)

def updateConfirmingOperation (operation : OperationRecord) (observation : Observation) (headNumber : ℕ) :
    Except CallResult OperationRecord := do
  let gasUsed ← optionalQuantity observation.receipt.gasUsed
  let effectiveGasPrice ← optionalQuantity observation.receipt.effectiveGasPrice
  return { operation with
    state := .confirming
    receiptBlockNumber := some observation.number
    receiptBlockHash := some observation.hash
    receiptStatus := some observation.status
    confirmations := headNumber + 1 - observation.number
    gasUsed := gasUsed
    effectiveGasPriceWei := effectiveGasPrice
    postconditionResults := []
    lastErrorCode := none }

/-- One round of `_postcondition_results`. -/
def postconditionResult (record : Json) (blockNumber : ℕ) (postcondition : EqualityPostcondition) :
    Prog World PostconditionResult :=
  let result (actual : Except String (List Json)) : PostconditionResult := match actual with
    | .error code => ⟨postcondition, none, false, some code⟩
    | .ok actual => ⟨postcondition, some actual, Json.pyEqList actual postcondition.expectedResult, none⟩
  match lib.functionBySignature record postcondition.functionSignature with
  | .error code => .done (result (.error code))
  | .ok function =>
    match lib.encodeCall function postcondition.arguments with
    | .error code => .done (result (.error code))
    | .ok callData =>
      Program.perform (.rpc (.call callData blockNumber)) fun r =>
        match answered node (.call callData blockNumber) Answer.toData r with
        | .error code => result (.error code)
        | .ok hex => result (lib.decodeValues function hex)

def terminalOutcome (operation : OperationRecord) (record : Json) :
    CallM World (OperationRecord × Option OperationState) := do
  if operation.receiptStatus = some 0 then return (operation, some .reverted)
  else
    let results ← ExceptT.lift (Program.mapList (postconditionResult lib node record (operation.receiptBlockNumber.getD 0))
      operation.postconditions)
    let operation := { operation with postconditionResults := results }
    match results.findSome? (·.errorCode) with
    | some code => return ({ operation with state := .confirming, lastErrorCode := some code }, none)
    | none => return (operation, some (if results.all (·.isMatched) then .succeeded else .postconditionFailed))

def finalizeOperation (operation expected : OperationRecord) (record : Json) (pinned : ℕ × String) :
    CallM World CallResult := do
  match ← terminalOutcome lib node operation record with
  | (operation, none) => persistOperation lib operation expected
  | (operation, some terminalState) =>
    match ← recheckPinnedBlock node pinned with
    | .error _ =>
      persistOperation lib
        { operation with state := .confirming, lastErrorCode := some "STALE_BLOCK", postconditionResults := [] } expected
    | .ok () =>
      persistOperation lib
        { operation with
          state := terminalState
          lastErrorCode := if terminalState = .postconditionFailed then some "POSTCONDITION_FAILED" else none } expected

def operationStatus : CallM World CallResult := do
  let (operation, record, pinned) ← loadOperationStatusFacts lib node
  if operation.state.isTerminal then return operationResult lib operation
  else
    match ← observeOperationReceipt node operation with
    | none => persistOperation lib (missingReceipt operation) operation
    | some observation =>
      if receiptIsReorged operation observation pinned.1 then
        persistOperation lib { operation with state := .reorged, lastErrorCode := none } operation
      else
        let updated ← ExceptT.mk (pure (updateConfirmingOperation operation observation pinned.1))
        if updated.confirmations < updated.confirmationDepth then persistOperation lib updated operation
        else finalizeOperation lib node updated operation record pinned

inductive Op where
  | send (request : ResolvedPreparedTransaction) (config : BlockchainConfig)
  | status

def program : Op → Prog World (Except CallResult CallResult)
  | .send request config => sendResolvedTransaction lib node request config
  | .status => operationStatus lib node

end
end OpenMinion.BlockchainOperations
