import Kybernetes.Reachability

namespace Kybernetes

open Bootstrap

namespace State

theorem applyTransaction_returns (state : State) (transaction : Transaction) :
    Returns (state.applyTransaction transaction).1 := by
  intro message
  unfold applyTransaction
  dsimp only
  repeat' split
  all_goals simp

theorem tryApplyTransaction_returns (state : State) (transaction : Transaction) :
    Returns (state.tryApplyTransaction transaction) := by
  have applies := state.applyTransaction_returns transaction
  unfold tryApplyTransaction
  split
  · exact returns_ok _
  · rename_i fault _ run
    intro message
    rw [run] at applies
    simpa using applies message

end State

namespace Mempool

theorem nextNonceFrom_returns (expected : UInt64) (transactions : List Transaction) :
    Returns (nextNonceFrom expected transactions) := by
  induction transactions generalizing expected with
  | nil => exact returns_ok expected
  | cons transaction rest ih =>
    unfold nextNonceFrom
    split
    · exact ih expected
    · split
      · exact returns_ok expected
      · split
        · intro message
          simp
        · exact ih _

theorem pendingCost_returns (mempool : Mempool) (address : Text) : Returns (mempool.pendingCost address) :=
  returns_foldlM _ (fun _ _ => (returns_okOr _ _).bind fun _ _ => returns_okOr _ _) 0

end Mempool

namespace FeeTotals

theorem charge_returns {economy : Economy}
    (shares : economy.liquidityFeePercent.toNat + economy.treasuryFeePercent.toNat ≤ 100) (totals : FeeTotals)
    (transaction : Transaction) : Returns (charge economy totals transaction) := by
  obtain ⟨parts, run⟩ := Economy.distributeFee_ok shares transaction.fee
  unfold charge
  rw [run]
  exact (returns_okOr _ _).bind fun _ _ => (returns_okOr _ _).bind fun _ _ => (returns_okOr _ _).bind
    fun _ _ => (returns_okOr _ _).bind fun _ _ => returns_ok _

theorem credit_returns (totals : FeeTotals) (validator : Text) (state : State) (economy : Economy) :
    Returns (totals.credit validator state economy) := by
  have add : ∀ (s : State) (a : Text) (amount : UInt64), Returns (s.addBalance a amount) := fun s a amount =>
    (returns_okOr _ _).bind fun _ _ => (returns_okOr _ _).bind fun _ _ => returns_ok _
  exact (add _ _ _).bind fun _ _ => ((returns_okOr _ _).bind fun _ _ => returns_ok _).bind fun _ _ =>
    ((returns_okOr _ _).bind fun _ _ => returns_ok _).bind fun _ _ =>
      ((returns_okOr _ _).bind fun _ _ => returns_ok _).bind fun _ _ => returns_ok _

end FeeTotals

theorem Economy.rewardValidator_returns (economy : Economy) : Returns economy.rewardValidator := by
  have mint : Returns (economy.mint economy.blockReward) := (returns_rejectIf _ _).bind fun _ _ => returns_ok _
  exact mint.bind fun _ _ => returns_ok _

namespace Blockchain

theorem validateTransactionFieldSizes_returns (transaction : Transaction) :
    Returns (validateTransactionFieldSizes transaction) := by
  refine (returns_rejectIf _ _).bind fun _ _ => ?_
  split
  · exact (returns_rejectIf _ _).bind fun _ _ => (returns_rejectIf _ _).bind fun _ _ => returns_rejectIf _ _
  · exact (returns_rejectIf _ _).bind fun _ _ => (returns_rejectIf _ _).bind fun _ _ =>
      (returns_okOr _ _).bind fun _ _ => returns_rejectIf _ _

theorem validateBlockFieldSizes_returns (block : Block) : Returns (validateBlockFieldSizes block) := by
  refine (returns_rejectIf _ _).bind fun _ _ => (returns_rejectIf _ _).bind fun _ _ => ?_
  split
  · exact returns_rejectIf _ _
  · exact (returns_rejectIf _ _).bind fun _ _ => (returns_rejectIf _ _).bind fun _ _ =>
      (returns_rejectIf _ _).bind fun _ _ => (returns_rejectIf _ _).bind fun _ _ =>
      (returns_okOr _ _).bind fun _ _ => (returns_rejectIf _ _).bind fun _ _ =>
      returns_forM _ validateTransactionFieldSizes_returns

theorem insertIds_returns (seen : List Text) (transactions : List Transaction) :
    Returns (insertIds seen transactions) := by
  induction transactions generalizing seen with
  | nil => exact returns_ok ()
  | cons transaction rest ih => exact (returns_rejectIf _ _).bind fun _ _ => ih _

theorem validateFutureTimestamp_returns (now : SystemTime) (timestamp : UInt64) :
    Returns (validateFutureTimestamp now timestamp) :=
  (returns_okOr _ _).bind fun _ _ => (returns_okOr _ _).bind fun _ _ => returns_rejectIf _ _

variable [Crypto]

/-- Only the split of a fee can panic, and it does not when the percentages
leave something of a fee. -/
theorem createBlockFromMempool_returns {blockchain : Blockchain}
    (shares : blockchain.economy.liquidityFeePercent.toNat + blockchain.economy.treasuryFeePercent.toNat ≤ 100)
    (now : SystemTime) (timestamp : UInt64) (wallet : Wallet) (mempool : Mempool) (state : State) :
    Returns (blockchain.createBlockFromMempool now timestamp wallet mempool state) := by
  refine (returns_rejectIf _ _).bind fun _ _ => (returns_okOr _ _).bind fun _ _ =>
    (returns_rejectIf _ _).bind fun _ _ => (validateFutureTimestamp_returns _ _).bind fun _ _ =>
    (returns_rejectIf _ _).bind fun _ _ => (returns_forM _ fun _ => returns_rejectIf _ _).bind fun _ _ => ?_
  refine (returns_foldlM _ State.tryApplyTransaction_returns _).bind fun _ _ =>
    (returns_foldlM _ (FeeTotals.charge_returns shares) _).bind fun _ _ =>
    (FeeTotals.credit_returns _ _ _ _).bind fun _ _ => (Economy.rewardValidator_returns _).bind fun _ _ => ?_
  exact (State.tryApplyTransaction_returns _ _).bind fun _ _ => (validateBlockFieldSizes_returns _).bind
    fun _ _ => (insertIds_returns _ _).bind fun _ _ => returns_ok _

end Blockchain

namespace Node

variable [Crypto]

theorem validateTransactionBase_returns (transaction : Transaction) (economy : Economy) :
    Returns (validateTransactionBase transaction economy) := by
  refine (Blockchain.validateTransactionFieldSizes_returns transaction).bind fun _ _ =>
    (returns_rejectIf _ _).bind fun _ _ => (returns_rejectIf _ _).bind fun _ _ =>
    (returns_rejectIf _ _).bind fun _ _ => (returns_rejectIf _ _).bind fun _ _ =>
    (returns_rejectIf _ _).bind fun _ _ => (returns_okOr _ _).bind fun _ _ => ?_
  exact (returns_rejectIf _ _).bind fun _ _ => (returns_okOr _ _).bind fun _ _ =>
    (returns_rejectIf _ _).bind fun _ _ => (returns_rejectIf _ _).bind fun _ _ => returns_rejectIf _ _

theorem validateTransactionForMempool_returns (transaction : Transaction) (state : State) (economy : Economy)
    (mempool : Mempool) : Returns (validateTransactionForMempool transaction state economy mempool) := by
  refine (validateTransactionBase_returns _ _).bind fun _ _ => (Mempool.nextNonceFrom_returns _ _).bind fun _ _ =>
    (returns_rejectIf _ _).bind fun _ _ => (returns_okOr _ _).bind fun _ _ => ?_
  exact (Mempool.pendingCost_returns _ _).bind fun _ _ => (returns_okOr _ _).bind fun _ _ => returns_rejectIf _ _

/-- Admission either leaves the node as it was, or adds a genuine transaction
whose id was not pending. -/
theorem insertTransactionIntoMempool_cases (node : Node) (transaction : Transaction) :
    (∃ error, node.insertTransactionIntoMempool transaction = (.error (.error error), node)) ∨
      transaction.Genuine node.blockchain.economy ∧
        transaction.id ∉ node.mempool.transactions.map Transaction.id ∧
        node.insertTransactionIntoMempool transaction =
          (.ok (), { node with mempool := { transactions := node.mempool.transactions ++ [transaction] } }) := by
  have returns := validateTransactionForMempool_returns transaction node.state node.blockchain.economy node.mempool
  unfold insertTransactionIntoMempool
  cases valid : validateTransactionForMempool transaction node.state node.blockchain.economy node.mempool with
  | error fault =>
    cases fault with
    | error error => exact Or.inl ⟨error, rfl⟩
    | panic message => exact absurd valid (returns message)
  | ok =>
    dsimp only
    split
    · rename_i mempool added
      obtain ⟨rfl, fresh⟩ := addTransaction_true added
      exact Or.inr ⟨validateTransactionForMempool_genuine valid, fresh, rfl⟩
    · rename_i mempool refused
      rw [addTransaction_false refused]
      exact Or.inl ⟨_, rfl⟩

theorem prepareBlock_returns {node : Node}
    (shares : node.blockchain.economy.liquidityFeePercent.toNat +
      node.blockchain.economy.treasuryFeePercent.toNat ≤ 100)
    (now : SystemTime) (timestamp : UInt64) (wallet : Wallet) : Returns (node.prepareBlock now timestamp wallet) :=
  (returns_rejectIf _ _).bind fun _ _ => (returns_okOr _ _).bind fun _ _ => (returns_okOr _ _).bind
    fun _ _ => (returns_rejectIf _ _).bind fun _ _ =>
      Blockchain.createBlockFromMempool_returns shares now timestamp wallet node.mempool node.state

/-- Production fails and changes nothing, or it leaves what it prepared. -/
theorem produceBlock_cases {node : Node}
    (shares : node.blockchain.economy.liquidityFeePercent.toNat +
      node.blockchain.economy.treasuryFeePercent.toNat ≤ 100)
    (now : SystemTime) (answer : WriteAnswer) (file : ChainFile) (timestamp : UInt64) (wallet : Wallet) :
    (∃ error, node.produceBlock now answer file timestamp wallet = (.error (.error error), node, file)) ∨
      ∃ block blockchain mempool state,
        node.prepareBlock now timestamp wallet = .ok (block, blockchain, mempool, state) ∧
        node.produceBlock now answer file timestamp wallet =
          (.ok block, { node with blockchain, state, mempool }, .blocks blockchain.chain) := by
  have returns := prepareBlock_returns shares now timestamp wallet
  unfold produceBlock
  cases prepared : node.prepareBlock now timestamp wallet with
  | error fault =>
    cases fault with
    | error error => exact Or.inl ⟨error, rfl⟩
    | panic message => exact absurd prepared (returns message)
  | ok result =>
    obtain ⟨block, blockchain, mempool, state⟩ := result
    have saves : (∃ error, Storage.saveBlockchainTo answer file blockchain.chain = (.error (.error error), file)) ∨
        Storage.saveBlockchainTo answer file blockchain.chain = (.ok (), .blocks blockchain.chain) := by
      unfold Storage.saveBlockchainTo
      split
      · exact Or.inl ⟨_, rfl⟩
      · cases answer with
        | error error => exact Or.inl ⟨error, rfl⟩
        | ok _ => exact Or.inr rfl
    dsimp only
    rcases saves with ⟨error, save⟩ | save
    · rw [save]
      exact Or.inl ⟨_, rfl⟩
    · rw [save]
      exact Or.inr ⟨block, blockchain, mempool, state, rfl, rfl⟩

end Node

/-- The attempt of a running node to produce returns to its caller; without a
block it has changed nothing. -/
theorem NodeRuntime.tryProducePendingBlock_cases [Crypto] {runtime : NodeRuntime}
    (shares : runtime.node.blockchain.economy.liquidityFeePercent.toNat +
      runtime.node.blockchain.economy.treasuryFeePercent.toNat ≤ 100)
    (clock : Nat → SystemTime) (answer : WriteAnswer) (file : ChainFile) :
    (runtime.tryProducePendingBlock clock answer file = (.ok none, runtime, file)) ∨
      (∃ error, runtime.tryProducePendingBlock clock answer file = (.error (.error error), runtime, file)) ∨
      ∃ timestamp wallet block blockchain mempool state,
        runtime.node.prepareBlock (clock 1) timestamp wallet = .ok (block, blockchain, mempool, state) ∧
        runtime.tryProducePendingBlock clock answer file =
          (.ok (some block), { runtime with node := { runtime.node with blockchain, state, mempool } },
            .blocks blockchain.chain) := by
  obtain ⟨node, validatorIdentity, locked, active⟩ := runtime
  unfold tryProducePendingBlock
  cases validatorIdentity with
  | none => exact Or.inl rfl
  | some identity =>
    dsimp only
    split
    · exact Or.inl rfl
    split
    · exact Or.inl rfl
    split
    · exact Or.inr (Or.inl ⟨_, rfl⟩)
    split
    · exact Or.inr (Or.inl ⟨_, rfl⟩)
    split
    · exact Or.inl rfl
    split
    · exact Or.inr (Or.inl ⟨_, rfl⟩)
    rename_i next _
    rcases Node.produceBlock_cases shares (clock 1) answer file (max (currentTimestamp (clock 0)) next) identity with
      ⟨error, run⟩ | ⟨block, blockchain, mempool, state, prepared, run⟩
    · rw [run]
      exact Or.inr (Or.inl ⟨error, rfl⟩)
    · rw [run]
      exact Or.inr (Or.inr ⟨_, identity, block, blockchain, mempool, state, prepared, rfl⟩)

end Kybernetes
