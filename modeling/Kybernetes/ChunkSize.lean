import Kybernetes.MessageSizes
import Kybernetes.Messages
import Kybernetes.TransactionHistory

namespace Kybernetes

namespace Transaction

/-- Every number needs a digit, a word at most twenty and the reward marker at
most 39. -/
theorem digits_bounds (transaction : Transaction) : 4 ≤ transaction.digits ∧ transaction.digits ≤ 99 := by
  have amount := decimal_length_le_word transaction.amount
  have fee := decimal_length_le_word transaction.fee
  have nonce := decimal_length_le_word transaction.nonce
  have marker : (decimal transaction.rewardMarker.toNat).length ≤ 39 := by
    have bound := transaction.rewardMarker.isLt
    exact decimal_length_le (by omega) (by decide)
  have first := decimal_length_pos transaction.amount.toNat
  have second := decimal_length_pos transaction.fee.toNat
  have third := decimal_length_pos transaction.nonce.toNat
  have fourth := decimal_length_pos transaction.rewardMarker.toNat
  unfold digits
  omega

end Transaction

/-- The normal transactions of a block take 507 bytes each at least, with the
comma behind each. -/
theorem Block.normals_le_jsonSize (block : Block) : 507 * (normalsOf [block]).length ≤ block.jsonSize := by
  have each : ∀ transactions : List Transaction,
      507 * (transactions.filter fun transaction => ¬ transaction.coinbase).length ≤
        (transactions.map Transaction.jsonSize).sum + transactions.length := by
    intro transactions
    induction transactions with
    | nil => exact Nat.le_refl _
    | cons transaction rest ih =>
      have digits := transaction.digits_bounds.1
      rw [List.map_cons, List.sum_cons, List.length_cons, List.filter_cons]
      unfold Transaction.jsonSize at ih ⊢
      split
      · rename_i normal
        rw [if_neg (by simpa using normal), List.length_cons]
        omega
      · omega
  have transactions := each block.transactions
  have single : normalsOf [block] = block.transactions.filter fun transaction => ¬ transaction.coinbase := by
    simp [normalsOf]
  rw [single]
  unfold Block.jsonSize
  split
  · omega
  · omega

theorem normalsOf_le_jsonSize (blocks : List Block) :
    507 * (normalsOf blocks).length ≤ (blocks.map Block.jsonSize).sum := by
  induction blocks with
  | nil => exact Nat.le_refl _
  | cons block rest ih =>
    have first := block.normals_le_jsonSize
    have split : normalsOf (block :: rest) = normalsOf [block] ++ normalsOf rest := by
      rw [← normalsOf_append, List.singleton_append]
    rw [split, List.length_append, List.map_cons, List.sum_cons]
    omega

/-- A block takes at most 602 bytes for each transaction and 560 of its own. -/
theorem Block.jsonSize_le (block : Block) : block.jsonSize ≤ 602 * block.transactions.length + 560 := by
  have each : (block.transactions.map Transaction.jsonSize).sum ≤ 601 * block.transactions.length := by
    induction block.transactions with
    | nil => exact Nat.le_refl _
    | cons transaction rest ih =>
      have digits := transaction.digits_bounds.2
      rw [List.map_cons, List.sum_cons, List.length_cons]
      unfold Transaction.jsonSize at ih ⊢
      split
      · omega
      · omega
  have index := decimal_length_le_word block.index
  have timestamp := decimal_length_le_word block.timestamp
  unfold jsonSize
  split
  · omega
  · omega

theorem jsonSize_sum_le (blocks : List Block) :
    (blocks.map Block.jsonSize).sum ≤ 602 * (blocks.flatMap Block.transactions).length + 560 * blocks.length := by
  induction blocks with
  | nil => exact Nat.le_refl _
  | cons block rest ih =>
    have first := block.jsonSize_le
    rw [List.map_cons, List.sum_cons, List.flatMap_cons, List.length_append, List.length_cons]
    omega

/-- The length of the JSON of a chunk of blocks with fields of the proper sizes. -/
def ChainChunk.jsonSize (chunk : ChainChunk) : Nat :=
  (decimal chunk.startIndex.toNat).length + (decimal chunk.totalBlocks.toNat).length +
    ((chunk.blocks.map Block.jsonSize).sum + (chunk.blocks.length - 1)) + 67

theorem TcpTransport.sendMessage_sends {message : NetworkMessage} (nonempty : message.json ≠ []) :
    (∃ frame, sendMessage message = .ok frame) ↔ message.json.length ≤ maxNetworkMessageBytes := by
  have limit : maxNetworkMessageBytes = 8388608 := rfl
  simp only [sendMessage, bind_eq_ok, rejectIf_eq_ok, pure_eq_ok, exists_const, not_lt]
  constructor
  · rintro ⟨_, _, within, _⟩
    exact within
  · intro within
    exact ⟨_, nonempty, within, by omega, rfl⟩

theorem ChainChunk.served_json_length {chain : List Block}
    (sizes : ∀ block ∈ chain, Blockchain.validateBlockFieldSizes block = .ok ()) {startIndex : UInt64} :
    (served chain startIndex).message.json.length = (served chain startIndex).jsonSize :=
  NetworkMessage.chainChunkResponse_length fun block member =>
    sizes block (List.mem_of_mem_drop (List.mem_of_mem_take member))

/-- A chunk goes into a frame exactly when its blocks are small enough together:
the limit of 256 blocks alone does not see to it. -/
theorem NodeRuntime.chunk_sent_iff [Crypto] {runtime : NodeRuntime}
    (sizes : ∀ block ∈ runtime.node.blockchain.chain, Blockchain.validateBlockFieldSizes block = .ok ())
    {startIndex : UInt64} {message : NetworkMessage} (built : runtime.chainChunkResponse startIndex = .ok message) :
    (message.json.length ≤ maxNetworkMessageBytes ↔
      (ChainChunk.served runtime.node.blockchain.chain startIndex).jsonSize ≤ 8388608) ∧
    ((∃ frame, TcpTransport.sendMessage message = .ok frame) ↔
      (ChainChunk.served runtime.node.blockchain.chain startIndex).jsonSize ≤ 8388608) := by
  obtain ⟨_, _, rfl⟩ := chainChunkResponse_eq_ok.mp built
  have length : (ChainChunk.served runtime.node.blockchain.chain startIndex).message.json.length =
      (ChainChunk.served runtime.node.blockchain.chain startIndex).jsonSize := ChainChunk.served_json_length sizes
  have nonempty : (ChainChunk.served runtime.node.blockchain.chain startIndex).message.json ≠ [] := by
    apply List.ne_nil_of_length_pos
    rw [length]
    unfold ChainChunk.jsonSize
    omega
  rw [TcpTransport.sendMessage_sends nonempty, length]
  exact ⟨Iff.rfl, Iff.rfl⟩

/-- At most 13000 transactions always go into a frame, and more than 16545
normal ones never. -/
theorem ChainChunk.jsonSize_bounds (chunk : ChainChunk) :
    (chunk.blocks.length ≤ maxSyncBlocksPerMessage →
      (chunk.blocks.flatMap Block.transactions).length ≤ 13000 → chunk.jsonSize ≤ 8388608) ∧
    (16545 < (normalsOf chunk.blocks).length → 8388608 < chunk.jsonSize) := by
  have limit : maxSyncBlocksPerMessage = 256 := rfl
  have upper := jsonSize_sum_le chunk.blocks
  have lower := normalsOf_le_jsonSize chunk.blocks
  have start := decimal_length_le_word chunk.startIndex
  have total := decimal_length_le_word chunk.totalBlocks
  unfold jsonSize
  constructor
  · intro count few
    omega
  · intro many
    omega

open Fixture in
/-- The chunk of a chain with one payment goes into a frame. -/
theorem Fixture.short_chunk_is_sent :
    let runtime := (Process.start (Node.new { blockchain with chain := [genesis, firstBlock] } state consensus)
      none).runtime
    ∃ message frame, runtime.chainChunkResponse 0 = .ok message ∧ TcpTransport.sendMessage message = .ok frame := by
  intro runtime
  have sizes : ∀ block ∈ runtime.node.blockchain.chain, Blockchain.validateBlockFieldSizes block = .ok () := by
    decide +kernel
  have built : runtime.chainChunkResponse 0 = .ok (ChainChunk.served [genesis, firstBlock] 0).message :=
    NodeRuntime.chainChunkResponse_eq_ok.mpr ⟨by decide, by decide, rfl⟩
  obtain ⟨frame, sent⟩ := (NodeRuntime.chunk_sent_iff sizes built).2.mpr
    ((ChainChunk.jsonSize_bounds _).1 (by decide) (by decide))
  exact ⟨_, frame, built, sent⟩

namespace Fixture

/-- A block with as many transactions as a block can have. -/
def fullBlock (index : UInt64) : Block :=
  { firstBlock with index, transactions := List.replicate maxNormalTransactionsPerBlock transfer ++ [reward] }

/-- A genesis block and 17 full blocks. -/
def fullChain : List Block :=
  genesis :: (List.range 17).map fun i => fullBlock (UInt64.ofNat (i + 1))

def fullRuntime : NodeRuntime :=
  (Process.start (Node.new { blockchain with chain := fullChain } state consensus) none).runtime

theorem fullBlock_sizes {index : UInt64} (index_ne : index ≠ 0) :
    Blockchain.validateBlockFieldSizes (fullBlock index) = .ok () := by
  have fields : isFixedHex firstBlock.hash hashHexLength = true ∧
      isFixedHex firstBlock.previousHash hashHexLength = true ∧
      isFixedHex firstBlock.validator addressHexLength = true ∧
      isFixedHex firstBlock.validatorPublicKey publicKeyHexLength = true ∧
      isFixedHex (hexEncode firstBlockSignature.val) signatureHexLength = true := by
    decide +kernel
  have payment : Blockchain.validateTransactionFieldSizes transfer = .ok () := by decide +kernel
  have coinbase : Blockchain.validateTransactionFieldSizes reward = .ok () := by decide +kernel
  obtain ⟨hash, previous, validator, key, signature⟩ := fields
  refine (Blockchain.validateBlockFieldSizes_eq_ok index_ne).mpr ⟨?_, hash, ⟨transfer, ?_, by decide⟩, previous,
    validator, key, ⟨_, rfl, signature⟩, fun transaction member => ?_⟩
  · rw [fullBlock, List.length_append, List.length_replicate]
    decide
  · exact List.mem_append_left _ (List.mem_replicate.mpr ⟨by decide, rfl⟩)
  · rcases List.mem_append.mp member with copy | last
    · rw [List.eq_of_mem_replicate copy]
      exact payment
    · rw [List.mem_singleton.mp last]
      exact coinbase

theorem fullChain_sizes : ∀ block ∈ fullChain, Blockchain.validateBlockFieldSizes block = .ok () := by
  intro block member
  rcases List.mem_cons.mp member with rfl | later
  · decide +kernel
  · obtain ⟨i, bound, rfl⟩ := List.mem_map.mp later
    refine fullBlock_sizes fun zero => ?_
    have value := congrArg UInt64.toNat zero
    rw [UInt64.toNat_ofNat_of_lt' (by rw [UInt64.size]; have := List.mem_range.mp bound; omega)] at value
    simp at value

theorem fullChain_normals : (normalsOf fullChain).length = 17000 := by
  have each : ∀ index, ((fullBlock index).transactions.filter fun transaction => !transaction.coinbase).length =
      1000 := by
    intro index
    have normal : (!transfer.coinbase) = true := rfl
    have last : [reward].filter (fun transaction => !transaction.coinbase) = [] := rfl
    rw [fullBlock, List.filter_append, last, List.append_nil, List.filter_replicate, if_pos normal,
      List.length_replicate]
    rfl
  have first : genesis.transactions = [] := rfl
  rw [normalsOf, List.filter_flatMap, List.length_flatMap, fullChain, List.map_cons, List.sum_cons, List.map_map,
    first]
  simp [Function.comp_def, each]

/-- Seventeen full blocks behind a genesis block do not go into a frame. -/
theorem full_chunk_exceeds_frame :
    (∀ block ∈ fullRuntime.node.blockchain.chain, Blockchain.validateBlockFieldSizes block = .ok ()) ∧
      ∃ message, fullRuntime.chainChunkResponse 0 = .ok message ∧ maxNetworkMessageBytes < message.json.length ∧
        TcpTransport.sendMessage message = .error (.error "Network message byte limit exceeded") := by
  have length : fullChain.length = 18 := by
    rw [fullChain, List.length_cons, List.length_map, List.length_range]
  have whole : (ChainChunk.served fullChain 0).blocks = fullChain :=
    List.take_of_length_le (by rw [UInt64.toNat_zero, List.drop_zero, length]; decide)
  have room : fullRuntime.node.blockchain.chain.length < 2 ^ 64 := by
    show fullChain.length < 2 ^ 64
    omega
  have built : fullRuntime.chainChunkResponse 0 = .ok (ChainChunk.served fullChain 0).message :=
    NodeRuntime.chainChunkResponse_eq_ok.mpr ⟨Nat.zero_le _, room, rfl⟩
  have large : 8388608 < (ChainChunk.served fullChain 0).message.json.length := by
    rw [ChainChunk.served_json_length fullChain_sizes]
    refine (ChainChunk.jsonSize_bounds _).2 ?_
    rw [whole, fullChain_normals]
    decide
  have nonempty : (ChainChunk.served fullChain 0).message.json ≠ [] := List.ne_nil_of_length_pos (by omega)
  refine ⟨fullChain_sizes, _, built, large, ?_⟩
  simp only [TcpTransport.sendMessage, rejectIf, if_neg nonempty, if_pos (show maxNetworkMessageBytes < _ from large)]
  rfl

end Fixture

end Kybernetes
