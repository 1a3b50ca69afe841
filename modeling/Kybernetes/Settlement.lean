import Kybernetes.Fees

namespace Kybernetes

variable [Crypto]

/-- A chain with its economy and the accounts that belong to it. -/
abbrev Ledger := Blockchain × State

/-- What one block does to a ledger, whichever way the block came: its normal
transactions in order, their fees, and the reward of its producer. Block
validation and block production are both compared with this function. -/
def Ledger.settle (ledger : Ledger) (block : Block) (normals : List Transaction) : Result Ledger := do
  let economy := ledger.1.economy
  let state ← ledger.2.applyTransactionsAtomically normals
  let totals ← normals.foldlM (FeeTotals.charge economy) FeeTotals.zero
  let (state, credited) ← totals.credit block.validator state economy
  let minted ← credited.mint economy.blockReward
  let state ← state.tryApplyTransaction
    (Transaction.newCoinbase block.validator economy.blockReward block.index)
  return ({ chain := ledger.1.chain ++ [block], economy := minted }, state)

/-- The ledger equations of one block. -/
structure Settles (before : Ledger) (block : Block) (normals : List Transaction) (after : Ledger) : Prop where
  balances : ∀ a, (after.2.balanceOf a).toNat + totalCost (sentBy a normals) =
    (before.2.balanceOf a).toNat + totalAmount (receivedBy a normals) +
      (if a = block.validator then
        before.1.economy.blockReward.toNat + (normals.map before.1.economy.validatorShare).sum else 0)
  nonces : ∀ a, after.2.nonceOf a = before.2.nonceOf a + UInt64.ofNat (sentBy a normals).length
  sequence : ∀ a, (sentBy a normals).map Transaction.nonce =
    noncesFrom (before.2.nonceOf a) (sentBy a normals).length
  elsewhere : ∀ a, sentBy a normals = [] → receivedBy a normals = [] → a ≠ block.validator →
    after.2.accounts.lookup a = before.2.accounts.lookup a
  total : after.2.totalBalance + after.2.treasuryBalance.toNat + after.1.economy.liquidityReserve.toNat =
    before.2.totalBalance + before.2.treasuryBalance.toNat + before.1.economy.liquidityReserve.toNat
      + before.1.economy.blockReward.toNat
  treasury : after.2.treasuryBalance.toNat =
    before.2.treasuryBalance.toNat + (normals.map before.1.economy.treasuryShare).sum
  liquidity : after.1.economy.liquidityReserve.toNat =
    before.1.economy.liquidityReserve.toNat + (normals.map before.1.economy.liquidityShare).sum
  supply : after.1.economy.totalSupply.toNat =
    before.1.economy.totalSupply.toNat + before.1.economy.blockReward.toNat
  capped : after.1.economy.totalSupply ≤ before.1.economy.maxSupply
  burned : after.2.burnedAmount = before.2.burnedAmount
  policy : ∃ totalSupply liquidityReserve,
    after.1.economy = { before.1.economy with totalSupply, liquidityReserve }
  chain : after.1.chain = before.1.chain ++ [block]

theorem State.reward_receives {state applied : State} {validator : Text} {reward index : UInt64}
    (run : state.tryApplyTransaction (Transaction.newCoinbase validator reward index) = .ok applied) :
    Receives state validator reward applied :=
  coinbase_receives rfl run

/-- A settled block meets the equations, for every list of payments. -/
theorem Ledger.settle_settles {before after : Ledger} {block : Block} {normals : List Transaction}
    (normal : ∀ transaction ∈ normals, transaction.coinbase = false)
    (run : before.settle block normals = .ok after) : Settles before block normals after := by
  simp only [settle, bind_eq_ok, pure_eq_ok] at run
  obtain ⟨paid, batch, totals, charged, ⟨credited, economy⟩, credit, minted, mint, rewarded, reward, rfl⟩ := run
  have pays := State.applyTransactionsAtomically_pays normal batch
  have collects := FeeTotals.foldlM_charge_collects charged
  obtain ⟨shared, treasury, liquidity, receipt, treasuryEq, liquidityEq, rfl, rfl⟩ :=
    FeeTotals.credit_eq_ok collects.burn credit
  obtain ⟨supply, supplyEq, capped, rfl⟩ := Economy.mint_eq_ok mint
  have coinbase := State.reward_receives reward
  have validatorTotal := collects.validator
  have liquidityTotal := collects.liquidity
  have treasuryTotal := collects.treasury
  have feeTotal := collects.total
  simp only [FeeTotals.zero, UInt64.toNat_zero, Nat.zero_add] at validatorTotal liquidityTotal treasuryTotal feeTotal
  have opened := pays.treasury
  refine ⟨fun a => ?_, fun a => ?_, pays.sequence, fun a noneSent noneReceived other => ?_, ?_, ?_, ?_, ?_, capped,
    ?_, ⟨supply, liquidity, rfl⟩, rfl⟩
  · have payment := pays.balances a
    have share := receipt.balances a
    have last : (rewarded.balanceOf a).toNat = (shared.balanceOf a).toNat
      + (if a = block.validator then before.1.economy.blockReward.toNat else 0) := coinbase.balances a
    dsimp only
    split at last
    · rename_i producer
      rw [if_pos producer] at share ⊢
      omega
    · rename_i other
      rw [if_neg other] at share ⊢
      omega
  · rw [coinbase.nonces a, ← pays.nonces a, ← receipt.nonces a]
    rfl
  · rw [coinbase.elsewhere a other, ← pays.elsewhere a noneSent noneReceived, ← receipt.elsewhere a other]
  · have payment := pays.total
    have share := receipt.total
    have last : rewarded.totalBalance = shared.totalBalance + before.1.economy.blockReward.toNat :=
      coinbase.total
    rw [opened] at treasuryEq
    simp only [coinbase.treasury]
    omega
  · rw [coinbase.treasury, ← opened]
    simp only
    omega
  · simp only
    omega
  · simpa using supplyEq
  · rw [coinbase.burned, ← pays.burned]
    exact receipt.burned

end Kybernetes
