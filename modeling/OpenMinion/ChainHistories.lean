import OpenMinion.BlockchainOperations

/-!
# Chains and their histories

The canonical chain is a list of block hashes, each of which determines the height and the transactions of its block.
Between two moments the chain may be any other one.
-/
namespace OpenMinion.ChainHistories
open BlockchainOperations

structure Inclusion where
  transactionHash : String
  status : ℕ
  gasUsed : Quantity
  effectiveGasPrice : Quantity

structure Ledger where
  height : String → ℕ
  inclusions : String → List Inclusion
  baseFeePerGas : String → Quantity

def Ledger.includes (L : Ledger) (hash transactionHash : String) : Bool :=
  (L.inclusions hash).any (·.transactionHash == transactionHash)

structure Chain (L : Ledger) where
  hashes : List String
  heights : ∀ number hash, hashes[number]? = some hash → L.height hash = number
  once : ∀ a ∈ hashes, ∀ b ∈ hashes, ∀ transactionHash,
    L.includes a transactionHash = true → L.includes b transactionHash = true → a = b

variable {L : Ledger}

namespace Chain

theorem height_of_mem {chain : Chain L} {hash : String} (h : hash ∈ chain.hashes) :
    chain.hashes[L.height hash]? = some hash := by
  obtain ⟨number, hnumber⟩ := List.mem_iff_getElem?.mp h
  rwa [chain.heights number hash hnumber]

theorem not_mem_of_getElem?_ne {chain : Chain L} {hash : String} (h : chain.hashes[L.height hash]? ≠ some hash) :
    hash ∉ chain.hashes := fun hmem => h (height_of_mem hmem)

def receiptIn (L : Ledger) (transactionHash hash : String) : Answer :=
  match (L.inclusions hash).find? (·.transactionHash == transactionHash) with
  | some found => .receipt ⟨transactionHash, .value (L.height hash), some hash, .value found.status, found.gasUsed,
      found.effectiveGasPrice⟩
  | none => .null

/-- The answer of a node on the chain; `other` where the chain does not decide it. -/
def answer (chain : Chain L) (other : RpcCall → Answer) : RpcCall → Answer
  | .latestBlock => match chain.hashes.getLast? with
    | some hash => .block (chain.hashes.length - 1) hash (L.baseFeePerGas hash)
    | none => .null
  | .blockByNumber number => match chain.hashes[number]? with
    | some hash => .block number hash (L.baseFeePerGas hash)
    | none => .null
  | .transactionReceipt transactionHash =>
    match chain.hashes.find? fun hash => L.includes hash transactionHash with
    | some hash => receiptIn L transactionHash hash
    | none => .null
  | call => other call

end Chain

/-- The chain at a moment, the calls that fail then, and the other answers of the node. -/
structure ChainView (L : Ledger) where
  chain : Chain L
  fails : RpcCall → Option String := fun _ => none
  other : RpcCall → Answer := fun _ => .null

def node : Node (ChainView L) := fun view call =>
  match view.fails call with
  | some code => .error code
  | none => .ok (view.chain.answer view.other call)

section Answers

variable {α : Type} {call : RpcCall} {decode : Answer → Option α} {r : Reply (ChainView L)} {a : α}

theorem answered_eq_ok (h : answered node call decode r = .ok a) :
    decode (r.env.world.chain.answer r.env.world.other call) = some a := by
  rw [answered, node] at h
  cases hfails : r.env.world.fails call with
  | some code =>
    rw [hfails] at h
    cases h
  | none =>
    rw [hfails] at h
    dsimp only at h
    cases hdecode : decode (r.env.world.chain.answer r.env.world.other call) with
    | none =>
      rw [hdecode] at h
      cases h
    | some a' =>
      rw [hdecode] at h
      cases h
      rfl

theorem canonical_eq {number : ℕ} {found : Option (ℕ × String)}
    (h : answered node (.blockByNumber number) Answer.toCanonicalBlock r = .ok found) :
    found = (r.env.world.chain.hashes[number]?).map (number, ·) := by
  have hanswer := answered_eq_ok h
  rw [Chain.answer] at hanswer
  cases hhash : r.env.world.chain.hashes[number]? with
  | none =>
    rw [hhash] at hanswer
    cases hanswer
    rfl
  | some hash =>
    rw [hhash] at hanswer
    cases hanswer
    rfl

theorem receipt_block {transactionHash : String} {receipt : Receipt}
    (h : answered node (.transactionReceipt transactionHash) Answer.toReceipt r = .ok (some receipt)) :
    ∃ hash, receipt.blockNumber = .value (L.height hash) ∧ receipt.blockHash = some hash ∧
      r.env.world.chain.hashes[L.height hash]? = some hash ∧ L.includes hash transactionHash = true := by
  have hanswer := answered_eq_ok h
  rw [Chain.answer] at hanswer
  cases hfind : r.env.world.chain.hashes.find? fun hash => L.includes hash transactionHash with
  | none =>
    rw [hfind] at hanswer
    cases hanswer
  | some found =>
    have hincludes : L.includes found transactionHash = true := by simpa using List.find?_some hfind
    have hmem := List.mem_of_find?_eq_some hfind
    rw [hfind] at hanswer
    dsimp only [Chain.receiptIn] at hanswer
    split at hanswer
    · cases hanswer
      exact ⟨found, rfl, rfl, Chain.height_of_mem hmem, hincludes⟩
    · cases hanswer

theorem receipt_eq {transactionHash : String} {receipt : Receipt} {number : ℕ} {hash : String}
    (h : answered node (.transactionReceipt transactionHash) Answer.toReceipt r = .ok (some receipt))
    (hnumber : receipt.blockNumber = .value number) (hhash : receipt.blockHash = some hash) :
    r.env.world.chain.hashes[number]? = some hash ∧ L.includes hash transactionHash = true := by
  obtain ⟨found, hnumber', hhash', hblock⟩ := receipt_block h
  cases hnumber'.symm.trans hnumber
  cases hhash'.symm.trans hhash
  exact hblock

theorem latest_eq {pinned : ℕ × String} (h : answered node .latestBlock Answer.toBlock r = .ok pinned) :
    pinned.1 + 1 = r.env.world.chain.hashes.length := by
  have hanswer := answered_eq_ok h
  rw [Chain.answer] at hanswer
  cases hlast : r.env.world.chain.hashes.getLast? with
  | none =>
    rw [hlast] at hanswer
    cases hanswer
  | some hash =>
    have hpos : 0 < r.env.world.chain.hashes.length := List.length_pos_of_mem (List.mem_of_getLast? hlast)
    rw [hlast] at hanswer
    cases hanswer
    dsimp only
    omega

theorem receipt_eq_none {transactionHash : String}
    (h : answered node (.transactionReceipt transactionHash) Answer.toReceipt r = .ok none) :
    ∀ hash ∈ r.env.world.chain.hashes, L.includes hash transactionHash = false := by
  have hanswer := answered_eq_ok h
  rw [Chain.answer] at hanswer
  cases hfind : r.env.world.chain.hashes.find? fun hash => L.includes hash transactionHash with
  | none =>
    intro hash hmem
    simpa using List.find?_eq_none.mp hfind hash hmem
  | some found =>
    have hincludes : L.includes found transactionHash = true := by simpa using List.find?_some hfind
    rw [hfind] at hanswer
    dsimp only [Chain.receiptIn] at hanswer
    split at hanswer
    · cases hanswer
    · next hnone =>
      rw [Ledger.includes, List.any_eq_true] at hincludes
      obtain ⟨inclusion, hmem, hsame⟩ := hincludes
      exact absurd hsame (by simpa using List.find?_eq_none.mp hnone inclusion hmem)

end Answers

/-- Some chain before moment `time` had the block, which includes the transaction. -/
def Seen (history : List (ChainView L)) (time : ℕ) (transactionHash : String) (number : ℕ) (hash : String) : Prop :=
  ∃ (i : ℕ) (view : ChainView L), i < time ∧ history[i]? = some view ∧ view.chain.hashes[number]? = some hash ∧
    L.includes hash transactionHash = true

/-- A block that included the transaction is no longer on the chain. -/
def Left (history : List (ChainView L)) (transactionHash : String) : Prop :=
  ∃ (hash : String) (i j : ℕ) (before after : ChainView L), i < j ∧ history[i]? = some before ∧ history[j]? = some after ∧
    hash ∈ before.chain.hashes ∧ L.includes hash transactionHash = true ∧ hash ∉ after.chain.hashes

section Extend

variable {history : List (ChainView L)} {transactionHash : String}

theorem getElem?_extend {i : ℕ} {view : ChainView L} (h : history[i]? = some view) (later : List (ChainView L)) :
    (history ++ later)[i]? = some view := by
  rw [List.getElem?_append_left (List.getElem?_eq_some_iff.mp h).1, h]

theorem Left.extend (h : Left history transactionHash) (later : List (ChainView L)) :
    Left (history ++ later) transactionHash := by
  obtain ⟨hash, i, j, before, after, hij, hi, hj, hrest⟩ := h
  exact ⟨hash, i, j, before, after, hij, getElem?_extend hi later, getElem?_extend hj later, hrest⟩

theorem Seen.extend {time number : ℕ} {hash : String} (h : Seen history time transactionHash number hash)
    (later : List (ChainView L)) : Seen (history ++ later) time transactionHash number hash := by
  obtain ⟨i, view, hi, hview, hrest⟩ := h
  exact ⟨i, view, hi, getElem?_extend hview later, hrest⟩

theorem Seen.left_of_other {time j number number' : ℕ} {hash hash' : String} {view : ChainView L}
    (h : Seen history time transactionHash number hash) (hj : time ≤ j) (hview : history[j]? = some view)
    (hother : view.chain.hashes[number']? = some hash') (hincludes : L.includes hash' transactionHash = true)
    (hne : number ≠ number' ∨ hash ≠ hash') : Left history transactionHash := by
  obtain ⟨i, before, hi, hbefore, hblock, hincluded⟩ := h
  refine ⟨hash, i, j, before, view, by omega, hbefore, hview, List.mem_of_getElem? hblock, hincluded, fun hmem => ?_⟩
  obtain rfl : hash = hash' := view.chain.once hash hmem hash' (List.mem_of_getElem? hother) _ hincluded hincludes
  have hnumber := before.chain.heights number hash hblock
  have hnumber' := view.chain.heights number' hash hother
  rcases hne with hne | hne
  · exact hne (hnumber.symm.trans hnumber')
  · exact hne rfl

theorem Seen.left_of_missing {time j number : ℕ} {hash : String} {view : ChainView L}
    (h : Seen history time transactionHash number hash) (hj : time ≤ j) (hview : history[j]? = some view)
    (hmissing : ∀ hash ∈ view.chain.hashes, L.includes hash transactionHash = false) : Left history transactionHash := by
  obtain ⟨i, before, hi, hbefore, hblock, hincluded⟩ := h
  refine ⟨hash, i, j, before, view, by omega, hbefore, hview, List.mem_of_getElem? hblock, hincluded, fun hmem => ?_⟩
  rw [hmissing hash hmem] at hincluded
  cases hincluded

theorem left_of_replaced {i j number : ℕ} {hash : String} {before after : ChainView L} (hij : i < j)
    (hi : history[i]? = some before) (hj : history[j]? = some after) (hblock : before.chain.hashes[number]? = some hash)
    (hincludes : L.includes hash transactionHash = true) (hother : after.chain.hashes[number]? ≠ some hash) :
    Left history transactionHash := by
  refine ⟨hash, i, j, before, after, hij, hi, hj, List.mem_of_getElem? hblock, hincludes, ?_⟩
  apply Chain.not_mem_of_getElem?_ne
  rwa [before.chain.heights number hash hblock]

end Extend
end OpenMinion.ChainHistories
