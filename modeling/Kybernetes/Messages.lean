import Kybernetes.Network

namespace Kybernetes

/-- What a connection has to do after a message was processed. -/
inductive RuntimeAction
  | reply (message : NetworkMessage)
  | broadcast (message : NetworkMessage)
deriving DecidableEq, Repr

structure ProcessOutcome where
  actions : List RuntimeAction
deriving DecidableEq, Repr

/-- The replies among the actions, in order. -/
def ProcessOutcome.replies (outcome : ProcessOutcome) : List NetworkMessage :=
  outcome.actions.filterMap fun action =>
    match action with
    | .reply message => some message
    | .broadcast _ => none

structure ChainChunk where
  startIndex : UInt64
  totalBlocks : UInt64
  blocks : List Block
deriving DecidableEq, Repr

namespace ChainChunk

/-- What `request_chunk` takes from the answer to its request. -/
def ofMessage (message : NetworkMessage) : Result ChainChunk :=
  match message with
  | .chainChunkResponse startIndex totalBlocks blocks => .ok { startIndex, totalBlocks, blocks }
  | _ => .error (.error "Unexpected message rejected during chain synchronization session")

def message (chunk : ChainChunk) : NetworkMessage :=
  .chainChunkResponse chunk.startIndex chunk.totalBlocks chunk.blocks

/-- The chunk of a chain from a start index on. -/
def served (chain : List Block) (startIndex : UInt64) : ChainChunk where
  startIndex := startIndex
  totalBlocks := UInt64.ofNat chain.length
  blocks := (chain.drop startIndex.toNat).take maxSyncBlocksPerMessage

/-- The loop of `validate_chunk` over the blocks; the offset is added to the
start index. -/
def checkOrder (startIndex : UInt64) : Nat → List Block → Result Unit
  | _, [] => .ok ()
  | offset, block :: rest => do
    let expectedIndex ← okOr (checkedAdd startIndex (UInt64.ofNat offset)) "Remote block index overflow"
    rejectIf (block.index ≠ expectedIndex) "Remote chain chunk block order is invalid"
    checkOrder startIndex (offset + 1) rest

end ChainChunk

namespace NodeRuntime

def validateChunk (chunk : ChainChunk) (expectedStart : UInt64) : Result Unit := do
  rejectIf (chunk.startIndex ≠ expectedStart) "Remote chain chunk start_index does not match the expected value"
  rejectIf (chunk.totalBlocks = 0 ∨ chunk.totalBlocks < chunk.startIndex)
    "Remote chain chunk total block count is invalid"
  rejectIf (maxSyncBlocksPerMessage < chunk.blocks.length) "Remote chain chunk exceeds the 256 block limit"
  let blockCount ← okOr (u64TryFrom chunk.blocks.length) "Remote chain chunk length is invalid"
  let endIndex ← okOr (checkedAdd chunk.startIndex blockCount) "Remote chain chunk index overflow"
  rejectIf (chunk.totalBlocks < endIndex ∨ chunk.blocks = [] ∧ endIndex < chunk.totalBlocks)
    "Remote chain chunk length is inconsistent with the total block count"
  ChainChunk.checkOrder chunk.startIndex 0 chunk.blocks

/-- The loop passes exactly when the indices count up from the start. -/
theorem checkOrder_eq_ok {startIndex : UInt64} {offset : Nat} {blocks : List Block}
    (room : startIndex.toNat + offset + blocks.length < 2 ^ 64) :
    ChainChunk.checkOrder startIndex offset blocks = .ok () ↔
      ∀ i block, blocks[i]? = some block → block.index.toNat = startIndex.toNat + offset + i := by
  induction blocks generalizing offset with
  | nil => simp [ChainChunk.checkOrder]
  | cons block rest ih =>
    rw [List.length_cons] at room
    have small : (UInt64.ofNat offset).toNat = offset := UInt64.toNat_ofNat_of_lt' (by rw [UInt64.size]; omega)
    have room' : startIndex.toNat + (offset + 1) + rest.length < 2 ^ 64 := by omega
    have later := ih room'
    simp only [ChainChunk.checkOrder, bind_eq_ok, okOr_eq_ok, checkedAdd_eq_some, rejectIf_eq_ok, exists_const,
      not_not, small, later]
    constructor
    · rintro ⟨expectedIndex, sum, rfl, counts⟩ i b found
      cases i with
      | zero =>
        cases found
        omega
      | succ i =>
        have index := counts i b found
        omega
    · intro counts
      have first := counts 0 block rfl
      refine ⟨block.index, by omega, rfl, fun i b found => ?_⟩
      have index := counts (i + 1) b found
      omega

/-- What the requester knows of a chunk that it takes. -/
theorem validateChunk_eq_ok {chunk : ChainChunk} {expectedStart : UInt64} :
    validateChunk chunk expectedStart = .ok () ↔
      chunk.startIndex = expectedStart ∧ 0 < chunk.totalBlocks.toNat ∧
        chunk.blocks.length ≤ maxSyncBlocksPerMessage ∧
        chunk.startIndex.toNat + chunk.blocks.length ≤ chunk.totalBlocks.toNat ∧
        (chunk.blocks = [] → chunk.startIndex.toNat = chunk.totalBlocks.toNat) ∧
        ∀ i block, chunk.blocks[i]? = some block → block.index.toNat = chunk.startIndex.toNat + i := by
  have bound := chunk.totalBlocks.toNat_lt
  have zero : chunk.totalBlocks = 0 ↔ chunk.totalBlocks.toNat = 0 := by
    rw [← UInt64.toNat_inj]
    rfl
  simp only [validateChunk, bind_eq_ok, rejectIf_eq_ok, okOr_eq_ok, u64TryFrom_eq_some, checkedAdd_eq_some,
    exists_const, not_or, not_and, not_not, ne_eq, zero, UInt64.lt_iff_toNat_lt, not_lt]
  constructor
  · rintro ⟨start, ⟨nonzero, within⟩, count, blockCount, counted, stop, sum, ⟨inside, filled⟩, order⟩
    refine ⟨start, by omega, count, by omega, fun none => ?_, ?_⟩
    · have full := filled none
      rw [none, List.length_nil] at counted
      omega
    · have indices := (checkOrder_eq_ok (by omega)).mp order
      simpa using indices
  · rintro ⟨start, positive, count, inside, filled, indices⟩
    obtain ⟨blockCount, counted⟩ := exists_eq_toNat (show chunk.blocks.length < 2 ^ 64 by omega)
    obtain ⟨stop, sum⟩ := exists_eq_toNat (show chunk.startIndex.toNat + chunk.blocks.length < 2 ^ 64 by omega)
    refine ⟨start, ⟨by omega, by omega⟩, count, blockCount, counted, stop, by omega, ⟨by omega, fun none => ?_⟩,
      (checkOrder_eq_ok (by omega)).mpr (by simpa using indices)⟩
    have full := filled none
    omega

/-- `request_chunk` on the answer that came to a request. -/
def receiveChunk (message : NetworkMessage) (requestedStart : UInt64) : Result ChainChunk := do
  let chunk ← ChainChunk.ofMessage message
  validateChunk chunk requestedStart
  return chunk

/-- The id a transaction is reported under. -/
def reportedId (transaction : Transaction) : Text :=
  if isFixedHex transaction.id hashHexLength then transaction.id else str "<invalid-id>"

variable [Crypto]

/-- `usize` has 64 bits, so a start index always converts. -/
def chainChunkResponse (self : NodeRuntime) (startIndex : UInt64) : Result NetworkMessage := do
  let start := startIndex.toNat
  let totalBlocks := self.node.blockchain.chain.length
  rejectIf (totalBlocks < start) "Chain chunk start exceeds the chain length"
  let stop := min (start + maxSyncBlocksPerMessage) totalBlocks
  let blocks := (self.node.blockchain.chain.drop start).take (stop - start)
  let totalBlocks ← okOr (u64TryFrom totalBlocks) "Blockchain length exceeds the u64 range"
  return .chainChunkResponse startIndex totalBlocks blocks

theorem chainChunkResponse_eq_ok {runtime : NodeRuntime} {startIndex : UInt64} {message : NetworkMessage} :
    runtime.chainChunkResponse startIndex = .ok message ↔
      startIndex.toNat ≤ runtime.node.blockchain.chain.length ∧ runtime.node.blockchain.chain.length < 2 ^ 64 ∧
        (ChainChunk.served runtime.node.blockchain.chain startIndex).message = message := by
  unfold chainChunkResponse
  generalize runtime.node.blockchain.chain = chain
  have blocks : (chain.drop startIndex.toNat).take
      (min (startIndex.toNat + maxSyncBlocksPerMessage) chain.length - startIndex.toNat) =
      (chain.drop startIndex.toNat).take maxSyncBlocksPerMessage := by
    rw [List.take_eq_take_iff, List.length_drop]
    omega
  simp only [bind_eq_ok, rejectIf_eq_ok, okOr_eq_ok, u64TryFrom_eq_some, pure_eq_ok, exists_const, blocks, not_lt]
  constructor
  · rintro ⟨within, totalBlocks, total, rfl⟩
    have bound := totalBlocks.toNat_lt
    refine ⟨within, by omega, ?_⟩
    rw [ChainChunk.message, ChainChunk.served, total, UInt64.ofNat_toNat]
  · rintro ⟨within, room, rfl⟩
    exact ⟨within, _, (UInt64.toNat_ofNat_of_lt' (by rw [UInt64.size]; omega)).symm, rfl⟩

/-- The `AccountStateRequest` branch of `process_message`. -/
def accountStateResponse (self : NodeRuntime) (address : Text) : Result NetworkMessage := do
  rejectIf (¬ isFixedHex address addressHexLength) "Account state request address is invalid"
  let balance := self.node.state.balanceOf address
  let nonce := self.node.state.nonceOf address
  let tip ← okOr self.node.blockchain.chain.getLast? "Blockchain is empty"
  return .accountStateResponse address balance nonce tip.index tip.hash

/-- A block that was not produced is only reported on the console; a panic
takes the whole connection with it. -/
def appendPendingBlockAction (self : NodeRuntime) (env : Environment) (file : ChainFile)
    (outcome : ProcessOutcome) : Result ProcessOutcome × NodeRuntime × ChainFile :=
  match self.tryProducePendingBlock env.clock env.answer file with
  | (.ok (some block), self, file) =>
    (.ok { actions := outcome.actions ++ [.broadcast (.block block)] }, self, file)
  | (.ok none, self, file) => (.ok outcome, self, file)
  | (.error (.error _), self, file) => (.ok outcome, self, file)
  | (.error (.panic message), self, file) => (.error (.panic message), self, file)

/-- The `Transaction` branch of `process_message`. -/
def processTransaction (self : NodeRuntime) (env : Environment) (file : ChainFile) (transaction : Transaction)
    (oneShotClient : Bool) : Result ProcessOutcome × NodeRuntime × ChainFile :=
  let transactionId := reportedId transaction
  match self.node.insertTransactionIntoMempool transaction with
  | (.ok (), node) =>
    let acks : List RuntimeAction := if oneShotClient then [.reply (.transactionAck transactionId true none)] else []
    { self with node }.appendPendingBlockAction env file
      { actions := acks ++ [RuntimeAction.broadcast (.transaction transaction)] }
  | (.error (.error _), node) =>
    let acks : List RuntimeAction :=
      if oneShotClient ∧ isFixedHex transactionId hashHexLength then
        [.reply (.transactionAck transactionId false (some (str "Transaction rejected by node")))]
      else []
    (.ok { actions := acks }, { self with node }, file)
  | (.error (.panic message), node) => (.error (.panic message), { self with node }, file)

/-- The `Block` branch of `process_message`: `received` is what the block itself
meets, `produced` what the block does that may be produced on it. -/
def processBlock (self : NodeRuntime) (received produced : Environment) (file : ChainFile) (block : Block) :
    Result ProcessOutcome × NodeRuntime × ChainFile :=
  let previousHeight := self.node.blockchain.chain.length
  match self.node.receiveBlockMessage (received.clock 0) received.answer file block with
  | (.ok _, node, file) =>
    if previousHeight < node.blockchain.chain.length then
      { self with node }.appendPendingBlockAction produced file { actions := [.broadcast (.block block)] }
    else (.ok { actions := [] }, { self with node }, file)
  | (.error (.error message), node, file) => (.error (.error message), { self with node }, file)
  | (.error (.panic message), node, file) => (.error (.panic message), { self with node }, file)

/-- A message on an authenticated connection. A handshake at this point is only
recorded with the peers. -/
def processMessage (self : NodeRuntime) (received produced : Environment) (file : ChainFile)
    (message : NetworkMessage) (oneShotClient : Bool) : Result ProcessOutcome × NodeRuntime × ChainFile :=
  match message with
  | .chainChunkRequest startIndex =>
    ((self.chainChunkResponse startIndex).map fun message => { actions := [.reply message] }, self, file)
  | .syncRequest => ((self.chainChunkResponse 0).map fun message => { actions := [.reply message] }, self, file)
  | .accountStateRequest address =>
    ((self.accountStateResponse address).map fun message => { actions := [.reply message] }, self, file)
  | .accountStateResponse .. => (.error (.error "Unexpected account state response rejected"), self, file)
  | .chainChunkResponse .. => (.error (.error "Unexpected chain chunk response rejected"), self, file)
  | .transactionAck .. => (.error (.error "Unexpected transaction ACK rejected"), self, file)
  | .transaction transaction => self.processTransaction produced file transaction oneShotClient
  | .block block => self.processBlock received produced file block
  | .handshake .. | .handshakeAck .. => (.ok { actions := [] }, self, file)

end NodeRuntime

end Kybernetes
