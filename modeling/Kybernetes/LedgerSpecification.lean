import Kybernetes.TransactionHistory

namespace Kybernetes

open Bootstrap
open Process (canonicalCandidate)

section

variable [Crypto]

/-- The floored 80 percent of a fee that go to the liquidity reserve. -/
def reserveShareOf (transaction : Transaction) : Nat :=
  80 * transaction.fee.toNat / 100

/-- The floored 5 percent of a fee that go to the treasury. -/
def treasuryShareOf (transaction : Transaction) : Nat :=
  5 * transaction.fee.toNat / 100

/-- What one block does to a ledger, said without the code: for every address,
for the three pots, and for everything that stays. -/
structure MeetsLedgerSpecification (blockchain : Blockchain) (state : State) (block : Block)
    (blockchain' : Blockchain) (state' : State) (normals : List Transaction) (coinbase : Transaction) :
    Prop where
  transactions : block.transactions = normals ++ [coinbase]
  normal : ∀ transaction ∈ normals, transaction.coinbase = false
  count : 1 ≤ normals.length ∧ normals.length ≤ 1000
  reward : coinbase.coinbase = true ∧ coinbase.to = block.validator ∧
    coinbase.amount = blockchain.economy.blockReward
  balances : ∀ a, (state'.balanceOf a).toNat + totalCost (sentBy a normals) =
    (state.balanceOf a).toNat + totalAmount (receivedBy a normals) +
      (if a = block.validator then
        blockchain.economy.blockReward.toNat + (normals.map fun transaction =>
          transaction.fee.toNat - reserveShareOf transaction - treasuryShareOf transaction).sum
      else 0)
  nonces : ∀ a, (state'.nonceOf a).toNat = (state.nonceOf a).toNat + (sentBy a normals).length
  treasury : state'.treasuryBalance.toNat = state.treasuryBalance.toNat + (normals.map treasuryShareOf).sum
  liquidity : blockchain'.economy.liquidityReserve.toNat =
    blockchain.economy.liquidityReserve.toNat + (normals.map reserveShareOf).sum
  supply : blockchain'.economy.totalSupply.toNat =
    blockchain.economy.totalSupply.toNat + blockchain.economy.blockReward.toNat
  chain : blockchain'.chain = blockchain.chain ++ [block]
  otherAccounts : ∀ a, sentBy a normals = [] → receivedBy a normals = [] → a ≠ block.validator →
    state'.accounts.lookup a = state.accounts.lookup a
  otherState : state'.burnedAmount = state.burnedAmount
  otherEconomy : blockchain'.economy = { blockchain.economy with
    totalSupply := blockchain'.economy.totalSupply
    liquidityReserve := blockchain'.economy.liquidityReserve }

omit [Crypto] in
/-- Under the canonical percentages the shares are the named ones. -/
theorem Economy.shares_eq {economy : Economy} (policy : economy.policy = Economy.new.policy) :
    economy.liquidityShare = reserveShareOf ∧ economy.treasuryShare = treasuryShareOf ∧
      economy.validatorShare = fun transaction =>
        transaction.fee.toNat - reserveShareOf transaction - treasuryShareOf transaction := by
  have liquidity : economy.liquidityFeePercent = 80 := congrArg Economy.liquidityFeePercent policy
  have treasury : economy.treasuryFeePercent = 5 := congrArg Economy.treasuryFeePercent policy
  have first : economy.liquidityShare = reserveShareOf := by
    funext transaction
    simp only [Economy.liquidityShare, feeShare, liquidity, reserveShareOf]
    rw [Nat.mul_comm]
    rfl
  have second : economy.treasuryShare = treasuryShareOf := by
    funext transaction
    simp only [Economy.treasuryShare, feeShare, treasury, treasuryShareOf]
    rw [Nat.mul_comm]
    rfl
  refine ⟨first, second, ?_⟩
  funext transaction
  simp only [Economy.validatorShare, first, second]

/-- Whatever block a node with the canonical percentages accepts meets the
specification, as long as no nonce is about to wrap around. -/
theorem Node.accepted_block_meets {node : Node} {now : SystemTime} {block : Block}
    {blockchain blockchain' : Blockchain} {state state' : State}
    (policy : blockchain.economy.policy = Economy.new.policy)
    (room : ∀ a, (state.nonceOf a).toNat + maxNormalTransactionsPerBlock < 2 ^ 64)
    (accepted : node.validateAndApplyBlock now block blockchain state = .ok (blockchain', state')) :
    ∃ normals coinbase, MeetsLedgerSpecification blockchain state block blockchain' state' normals coinbase := by
  obtain ⟨_, _, normals, admissible, settled⟩ := Node.validateAndApplyBlock_eq_ok.mp accepted
  have step : Settles (blockchain, state) block normals (blockchain', state') := admissible.settles settled
  obtain ⟨reserve, treasury, producer⟩ := Economy.shares_eq policy
  obtain ⟨supply, liquidity, same⟩ := step.policy
  refine ⟨normals, _, admissible.transactions, fun t member => (admissible.genuine t member).normal, ?_,
    ⟨rfl, rfl, rfl⟩, fun a => ?_, fun a => ?_, ?_, ?_, step.supply, step.chain, step.elsewhere, step.burned, ?_⟩
  · exact ⟨List.length_pos_of_ne_nil admissible.nonempty, admissible.count⟩
  · rw [← producer]
    exact step.balances a
  · have few : (sentBy a normals).length ≤ maxNormalTransactionsPerBlock :=
      (List.length_filter_le _ _).trans admissible.count
    rw [step.nonces a]
    exact toNat_add_ofNat (Nat.lt_of_le_of_lt (Nat.add_le_add_left few _) (room a))
  · rw [← treasury]
    exact step.treasury
  · rw [← reserve]
    exact step.liquidity
  · simp only at same
    rw [same]

/-- Every block that a node started from `canonical_bootstrap` accepts on its
chain and state meets the specification. -/
theorem Process.accepted_block_meets_specification (validatorIdentity : Option Wallet) (file : ChainFile)
    (history : List (Environment × Operation)) (now : SystemTime) (block : Block) :
    let node := ((Process.start canonicalCandidate validatorIdentity).run file history).1.node
    Ensures (node.validateAndApplyBlock now block node.blockchain node.state) fun after =>
      ∃ normals coinbase,
        MeetsLedgerSpecification node.blockchain node.state block after.1 after.2 normals coinbase := by
  intro node
  have descends := (Process.run_canonical validatorIdentity file history).descends
  refine ensures_iff.mpr fun after accepted => Node.accepted_block_meets descends.policy (fun a => ?_) accepted
  obtain ⟨_, added, _, _, nonces⟩ := descends.records
  obtain ⟨bound, count⟩ := nonces a
  have count' : (node.state.nonceOf a).toNat = (sentBy a (normalsOf added)).length := count
  rw [count', maxNormalTransactionsPerBlock]
  omega

end

open Fixture in
/-- The first block of the example node, with the balances of the sender, the recipient and the validator. -/
theorem Fixture.firstBlock_meets : ∃ blockchain' state' normals coinbase,
    node.validateAndApplyBlock now firstBlock node.blockchain node.state = .ok (blockchain', state') ∧
      MeetsLedgerSpecification node.blockchain node.state firstBlock blockchain' state' normals coinbase ∧
      state'.balanceOf (hexEncode senderAddress.val) = 20000000 - 1000000 - 10 ∧
      state'.balanceOf (hexEncode recipientAddress.val) = 1000000 ∧
      state'.balanceOf (hexEncode validatorAddress.val) = 10000000 + (10 - 8) := by
  have unused : ∀ a, node.state.nonceOf a = 0 :=
    State.nonceOf_createAccount (State.nonceOf_createAccount (State.nonceOf_createAccount
      (fun _ => rfl) _ _) _ _) _ _
  have read : (node.validateAndApplyBlock now firstBlock node.blockchain node.state).map (fun after =>
      (after.2.balanceOf (hexEncode senderAddress.val), after.2.balanceOf (hexEncode recipientAddress.val),
        after.2.balanceOf (hexEncode validatorAddress.val))) =
      .ok (20000000 - 1000000 - 10, 1000000, 10000000 + (10 - 8)) := by decide +kernel
  cases accepted : node.validateAndApplyBlock now firstBlock node.blockchain node.state with
  | error fault =>
    rw [accepted] at read
    cases read
  | ok after =>
    rw [accepted] at read
    obtain ⟨sender, others⟩ := Prod.mk.inj (Except.ok.inj read)
    obtain ⟨recipient, validator⟩ := Prod.mk.inj others
    obtain ⟨normals, coinbase, meets⟩ := Node.accepted_block_meets rfl (fun a => by rw [unused a]; decide) accepted
    exact ⟨after.1, after.2, normals, coinbase, rfl, meets, sender, recipient, validator⟩

end Kybernetes
