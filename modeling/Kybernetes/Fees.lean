import Kybernetes.Blockchain
import Kybernetes.Transfer

namespace Kybernetes

/-- The share of one fee that a percentage gives, rounded down. -/
def feeShare (percent : UInt64) (transaction : Transaction) : Nat :=
  transaction.fee.toNat * percent.toNat / 100

namespace Economy

def liquidityShare (economy : Economy) : Transaction → Nat :=
  feeShare economy.liquidityFeePercent

def treasuryShare (economy : Economy) : Transaction → Nat :=
  feeShare economy.treasuryFeePercent

/-- The producer of the block gets what the other two shares leave. -/
def validatorShare (economy : Economy) (transaction : Transaction) : Nat :=
  transaction.fee.toNat - economy.liquidityShare transaction - economy.treasuryShare transaction

theorem distributeFee_shares {economy : Economy} {fee : UInt64} {shares : FeeShares}
    (run : economy.distributeFee fee = .ok shares) :
    shares.liquidity.toNat = fee.toNat * economy.liquidityFeePercent.toNat / 100 ∧
      shares.treasury.toNat = fee.toNat * economy.treasuryFeePercent.toNat / 100 ∧
      shares.validator.toNat + shares.liquidity.toNat + shares.treasury.toNat = fee.toNat ∧ shares.burn = 0 := by
  simp only [distributeFee, bind_eq_ok, expect_eq_ok, u64TryFrom_eq_some, Option.bind_eq_some_iff,
    checkedSub_eq_some, pure_eq_ok] at run
  obtain ⟨liquidity, liquidityEq, treasury, treasuryEq, validator, ⟨remaining, first, second⟩, rfl⟩ := run
  exact ⟨liquidityEq.symm, treasuryEq.symm, by dsimp only; omega, rfl⟩

theorem distributeFee_eq_ok {economy : Economy} {transaction : Transaction} {shares : FeeShares}
    (run : economy.distributeFee transaction.fee = .ok shares) :
    shares.liquidity.toNat = economy.liquidityShare transaction ∧
      shares.treasury.toNat = economy.treasuryShare transaction ∧
      shares.validator.toNat = economy.validatorShare transaction ∧
      shares.validator.toNat + shares.liquidity.toNat + shares.treasury.toNat = transaction.fee.toNat ∧
      shares.burn = 0 := by
  obtain ⟨liquidity, treasury, sum, burn⟩ := distributeFee_shares run
  simp only [validatorShare, liquidityShare, treasuryShare, feeShare]
  exact ⟨liquidity, treasury, by omega, sum, burn⟩

/-- The shares exist when the two percentages leave something of a fee. -/
theorem distributeFee_ok {economy : Economy}
    (shares : economy.liquidityFeePercent.toNat + economy.treasuryFeePercent.toNat ≤ 100) (fee : UInt64) :
    ∃ parts, economy.distributeFee fee = .ok parts := by
  have bound := fee.toNat_lt
  have whole : fee.toNat * economy.liquidityFeePercent.toNat + fee.toNat * economy.treasuryFeePercent.toNat ≤
      fee.toNat * 100 := by
    rw [← Nat.mul_add]
    exact Nat.mul_le_mul_left _ shares
  obtain ⟨liquidity, liquidityEq⟩ := exists_eq_toNat
    (show fee.toNat * economy.liquidityFeePercent.toNat / 100 < 2 ^ 64 by omega)
  obtain ⟨treasury, treasuryEq⟩ := exists_eq_toNat
    (show fee.toNat * economy.treasuryFeePercent.toNat / 100 < 2 ^ 64 by omega)
  obtain ⟨remaining, remainingEq⟩ := exists_eq_toNat (show fee.toNat - liquidity.toNat < 2 ^ 64 by omega)
  obtain ⟨validator, validatorEq⟩ := exists_eq_toNat (show remaining.toNat - treasury.toNat < 2 ^ 64 by omega)
  simp only [distributeFee, bind_eq_ok, expect_eq_ok, u64TryFrom_eq_some, Option.bind_eq_some_iff,
    checkedSub_eq_some, pure_eq_ok]
  exact ⟨_, liquidity, liquidityEq, treasury, treasuryEq, validator, ⟨remaining, by omega, by omega⟩, rfl⟩

theorem mint_eq_ok {economy minted : Economy} {amount : UInt64} (run : economy.mint amount = .ok minted) :
    ∃ totalSupply : UInt64, totalSupply.toNat = economy.totalSupply.toNat + amount.toNat ∧
      totalSupply ≤ economy.maxSupply ∧ minted = { economy with totalSupply } := by
  simp only [mint, bind_eq_ok, rejectIf_eq_ok, pure_eq_ok, not_not] at run
  obtain ⟨_, allowed, rfl⟩ := run
  unfold canMint at allowed
  split at allowed
  · rename_i totalSupply sum
    have value := checkedAdd_eq_some.mp sum
    unfold checkedAdd at sum
    split at sum
    · cases sum
      exact ⟨_, value.symm, of_decide_eq_true allowed, rfl⟩
    · simp at sum
  · simp at allowed

end Economy

namespace FeeTotals

/-- The accumulators after the fees of a list of transactions. -/
structure Collects (economy : Economy) (before : FeeTotals) (transactions : List Transaction)
    (after : FeeTotals) : Prop where
  validator : after.validator.toNat =
    before.validator.toNat + (transactions.map economy.validatorShare).sum
  liquidity : after.liquidity.toNat =
    before.liquidity.toNat + (transactions.map economy.liquidityShare).sum
  treasury : after.treasury.toNat =
    before.treasury.toNat + (transactions.map economy.treasuryShare).sum
  burn : after.burn = before.burn
  total : after.validator.toNat + after.liquidity.toNat + after.treasury.toNat =
    before.validator.toNat + before.liquidity.toNat + before.treasury.toNat + totalFee transactions

theorem charge_collects {economy : Economy} {before after : FeeTotals} {transaction : Transaction}
    (run : before.charge economy transaction = .ok after) : Collects economy before [transaction] after := by
  simp only [charge, add, bind_eq_ok, okOr_eq_ok, checkedAdd_eq_some, pure_eq_ok] at run
  obtain ⟨shares, distributed, validator, v, liquidity, l, treasury, t, burn, b, rfl⟩ := run
  obtain ⟨liquidityEq, treasuryEq, validatorEq, sum, none⟩ := Economy.distributeFee_eq_ok distributed
  refine ⟨?_, ?_, ?_, ?_, ?_⟩
  · simp only [List.map_cons, List.map_nil, List.sum_singleton]; omega
  · simp only [List.map_cons, List.map_nil, List.sum_singleton]; omega
  · simp only [List.map_cons, List.map_nil, List.sum_singleton]; omega
  · rw [none] at b
    exact UInt64.toNat_inj.mp b.symm
  · simp only [totalFee, List.map_cons, List.map_nil, List.sum_singleton]; omega

theorem Collects.cons {economy : Economy} {before next after : FeeTotals} {transaction : Transaction}
    {transactions : List Transaction} (first : Collects economy before [transaction] next)
    (rest : Collects economy next transactions after) :
    Collects economy before (transaction :: transactions) after := by
  obtain ⟨v, l, t, b, s⟩ := first
  obtain ⟨v', l', t', b', s'⟩ := rest
  simp only [totalFee, List.map_cons, List.map_nil, List.sum_cons, List.sum_nil, Nat.add_zero] at v l t s s'
  refine ⟨?_, ?_, ?_, b'.trans b, ?_⟩
  all_goals simp only [totalFee, List.map_cons, List.sum_cons]; omega

theorem foldlM_charge_collects {economy : Economy} {before after : FeeTotals}
    {transactions : List Transaction} (run : transactions.foldlM (charge economy) before = .ok after) :
    Collects economy before transactions after := by
  induction transactions generalizing before with
  | nil =>
    cases foldlM_nil_eq_ok.mp run
    exact ⟨rfl, rfl, rfl, rfl, rfl⟩
  | cons transaction transactions ih =>
    obtain ⟨next, head, tail⟩ := foldlM_cons_eq_ok.mp run
    exact Collects.cons (charge_collects head) (ih tail)

/-- Opening the account of the validator where it is missing and then adding
to it is one receipt. -/
theorem openAndAdd_receives {state credited : State} {validator : Text} {amount : UInt64}
    (run : (if state.containsKey validator then state else state.createAccount validator 0).addBalance
      validator amount = .ok credited) : Receives state validator amount credited := by
  simp only [State.addBalance, bind_eq_ok, okOr_eq_ok, pure_eq_ok] at run
  obtain ⟨account, found, balance, sum, rfl⟩ := run
  have entry : State.entryOrInsert state.accounts validator = account := by
    unfold State.entryOrInsert
    unfold State.containsKey State.createAccount at found
    cases known : state.accounts.lookup validator with
    | none => simpa [known, Finmap.lookup_insert] using found
    | some held => simpa [known] using found
  have raised : checkedAdd (State.entryOrInsert state.accounts validator).balance amount = some balance := by
    rw [entry]
    exact sum
  have receipt := State.insert_receives raised
  rw [entry] at receipt
  unfold State.containsKey State.createAccount
  split
  · exact receipt
  · simpa only [Finmap.insert_insert] using receipt

/-- What crediting the collected fees changes when nothing is burned. -/
theorem credit_eq_ok {totals : FeeTotals} {validator : Text} {state state' : State}
    {economy economy' : Economy} (unburned : totals.burn = 0)
    (run : totals.credit validator state economy = .ok (state', economy')) :
    ∃ credited treasuryBalance liquidityReserve,
      Receives state validator totals.validator credited ∧
      state.treasuryBalance.toNat + totals.treasury.toNat = UInt64.toNat treasuryBalance ∧
      economy.liquidityReserve.toNat + totals.liquidity.toNat = UInt64.toNat liquidityReserve ∧
      state' = { credited with treasuryBalance } ∧ economy' = { economy with liquidityReserve } := by
  simp only [credit, State.addTreasury, Economy.addLiquidityReserve, State.burn, bind_eq_ok, okOr_eq_ok,
    pure_eq_ok, checkedAdd_eq_some, unburned, Prod.mk.injEq] at run
  obtain ⟨credited, added, _, ⟨treasury, treasuryEq, rfl⟩, _, ⟨liquidity, liquidityEq, rfl⟩, _,
    ⟨burned, burnedEq, rfl⟩, rfl, rfl⟩ := run
  have receipt := openAndAdd_receives added
  rw [receipt.treasury] at treasuryEq
  have same : burned = credited.burnedAmount := UInt64.toNat_inj.mp burnedEq.symm
  refine ⟨credited, treasury, liquidity, receipt, treasuryEq, liquidityEq, by rw [same], ?_⟩
  unfold Economy.burn
  split <;> simp

end FeeTotals

end Kybernetes
