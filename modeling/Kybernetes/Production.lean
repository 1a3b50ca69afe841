import Kybernetes.Acceptance

namespace Kybernetes

namespace Mempool

theorem selectStep_mem {pass : SelectionPass} {transaction x : Transaction} :
    (x ∈ (selectStep pass transaction).validTransactions → x ∈ pass.validTransactions ∨ x = transaction) ∧
    (x ∈ (selectStep pass transaction).nextPending → x ∈ pass.nextPending ∨ x = transaction) := by
  unfold selectStep
  split
  · simp +contextual
  · split <;> simp +contextual

theorem foldl_selectStep_mem (pass : SelectionPass) (pending : List Transaction) (x : Transaction) :
    (x ∈ (pending.foldl selectStep pass).validTransactions → x ∈ pass.validTransactions ∨ x ∈ pending) ∧
    (x ∈ (pending.foldl selectStep pass).nextPending → x ∈ pass.nextPending ∨ x ∈ pending) := by
  induction pending generalizing pass with
  | nil => simp
  | cons transaction pending ih =>
    simp only [List.foldl_cons, List.mem_cons]
    constructor
    · intro member
      rcases (ih _).1 member with before | later
      · rcases selectStep_mem.1 before with old | new
        · exact Or.inl old
        · exact Or.inr (Or.inl new)
      · exact Or.inr (Or.inr later)
    · intro member
      rcases (ih _).2 member with before | later
      · rcases selectStep_mem.2 before with old | new
        · exact Or.inl old
        · exact Or.inr (Or.inl new)
      · exact Or.inr (Or.inr later)

theorem selectLoop_mem (fuel : Nat) (state : State) {valid pending : List Transaction} {x : Transaction}
    (member : x ∈ (selectLoop fuel state valid pending).1) : x ∈ valid ∨ x ∈ pending := by
  induction fuel generalizing state valid pending with
  | zero => exact Or.inl member
  | succ fuel ih =>
    have pass := foldl_selectStep_mem
      { temporaryState := state, validTransactions := valid, nextPending := [], progress := false } pending
    simp only [List.not_mem_nil, false_or] at pass
    unfold selectLoop at member
    split at member
    · exact Or.inl member
    · dsimp only at member
      split at member
      · exact (pass x).1 member
      · split at member
        · exact (pass x).1 member
        · rcases ih _ member with chosen | left
          · exact (pass x).1 chosen
          · exact Or.inr ((pass x).2 left)

/-- Whatever order the passes take, only pending transactions are chosen. -/
theorem takeValidTransactions_mem {mempool : Mempool} {state : State} {x : Transaction}
    (member : x ∈ (mempool.takeValidTransactions state).1) : x ∈ mempool.transactions := by
  rcases selectLoop_mem (mempool.transactions.length + 1) state member with none | pending
  · simp at none
  · exact pending

end Mempool

variable [Crypto]

/-- The block carries the address, the key and the signature of a wallet. -/
structure Block.SealedBy (wallet : Wallet) (block : Block) : Prop where
  validator : block.validator = wallet.address
  publicKey : block.validatorPublicKey = wallet.publicKeyHex
  signature : block.validatorSignature = some (wallet.sign block.hash)

theorem Block.SealedBy.attested {wallet : Wallet} {block : Block} (lawful : SignaturesVerify)
    (sealed : block.SealedBy wallet) : block.Attested := by
  refine ⟨?_, wallet.sign block.hash, sealed.signature, ?_⟩
  · rw [sealed.publicKey, sealed.validator]
    exact wallet.addressFromPublicKey_publicKeyHex lawful
  · rw [sealed.publicKey]
    exact wallet.verify_sign lawful block.hash

def Node.ledger (node : Node) : Ledger :=
  (node.blockchain, node.state)

/-- What `produce_block` has built when it comes to writing: a block that
validation would accept, with the ledger validation would compute. -/
structure Prepared (node : Node) (now : SystemTime) (timestamp : UInt64) (wallet : Wallet) (block : Block)
    (normals : List Transaction) (after : Ledger) (mempool : Mempool) : Prop where
  admissible : Admissible node.consensus node.blockchain block normals
  sealed : block.SealedBy wallet
  timed : block.timestamp = timestamp
  future : Blockchain.validateFutureTimestamp now timestamp = .ok ()
  chosen : ∀ transaction ∈ normals, transaction ∈ node.mempool.transactions
  settled : node.ledger.settle block normals = .ok after
  cleaned : mempool = Node.removeConfirmedTransactions node.mempool block

omit [Crypto] in
/-- The producer collects the ids of its normal transactions first; the
mempool it leaves is the one a receiver of the block would leave. -/
theorem removeConfirmedTransactions_eq (mempool : Mempool) (block : Block) :
    Node.removeConfirmedTransactions mempool block =
      { transactions := mempool.transactions.filter fun pending =>
          ¬ ((block.transactions.filter fun transaction => ¬ transaction.coinbase).map
            Transaction.id).contains pending.id } := by
  unfold Node.removeConfirmedTransactions
  congr 1
  refine List.filter_congr fun pending _ => ?_
  rw [decide_eq_decide, not_iff_not]
  simp only [List.any_eq_true, List.contains_iff_mem, List.mem_map, List.mem_filter, Bool.and_eq_true,
    decide_eq_true_eq, Bool.not_eq_true, beq_iff_eq, and_assoc]

theorem Node.prepareBlock_prepared {node : Node} {now : SystemTime} {timestamp : UInt64} {wallet : Wallet}
    {block : Block} {blockchain : Blockchain} {mempool : Mempool} {state : State}
    (admitted : ∀ transaction ∈ node.mempool.transactions, transaction.Genuine node.blockchain.economy)
    (run : node.prepareBlock now timestamp wallet = .ok (block, blockchain, mempool, state)) :
    ∃ normals, Prepared node now timestamp wallet block normals (blockchain, state) mempool := by
  simp only [prepareBlock, Blockchain.createBlockFromMempool, bind_eq_ok, rejectIf_eq_ok, okOr_eq_ok, pure_eq_ok,
    exists_const, forM_eq_ok, ne_eq, not_not, UInt64.not_le, Economy.rewardValidator] at run
  obtain ⟨_, tip, last, selected, selection, producer, _, tip', last', later, _, future, nonempty, _, paid,
    applied, totals, charged, ⟨shared, economy⟩, credit, ⟨reward, minted⟩, ⟨_, mint, rewardEq⟩, rewarded,
    rewardApplied, _, sizes, _, unique, result⟩ := run
  cases Option.some.inj (last.symm.trans last')
  have unburned := (FeeTotals.foldlM_charge_collects charged).burn
  obtain ⟨credited, treasury, liquidity, _, _, _, _, rfl⟩ := FeeTotals.credit_eq_ok unburned credit
  cases rewardEq
  obtain ⟨rfl, rfl, rfl, rfl⟩ := result
  have index_ne := Blockchain.validateBlockFieldSizes_index_ne sizes (by simp [Block.new, Block.withSignature])
  obtain ⟨count, _, _, previous, validator, key, signature, _⟩ :=
    (Blockchain.validateBlockFieldSizes_eq_ok index_ne).mp sizes
  obtain ⟨distinct, fresh⟩ := Blockchain.validateTransactionIdUniqueness_eq_ok.mp unique
  refine ⟨(node.mempool.takeValidTransactions node.state).1, ?_, ⟨rfl, rfl, rfl⟩, rfl, future,
    fun _ => Mempool.takeValidTransactions_mem, ?_, by rw [removeConfirmedTransactions_eq]; rfl⟩
  · refine ⟨rfl, fun t member => admitted t (Mempool.takeValidTransactions_mem member), nonempty, ?_, rfl,
      index_ne, ⟨tip, last, rfl, later⟩, rfl, previous, validator, key, signature, ?_, distinct, fresh⟩
    · simp only [Block.new, Block.withSignature, List.length_append, List.length_singleton,
        maxTotalTransactionsPerBlock] at count
      omega
    · exact Option.map_eq_some_iff.mpr ⟨selected, selection, producer⟩
  · simp only [Ledger.settle, Node.ledger, bind_eq_ok, pure_eq_ok]
    exact ⟨paid, applied, totals, charged, _, credit, minted, mint, _, rewardApplied, rfl⟩

end Kybernetes
