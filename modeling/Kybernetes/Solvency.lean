import Kybernetes.Settlement

namespace Kybernetes

namespace State

variable {state : State} {transaction : Transaction}

/-- A receipt that keeps all money together within a word has room. -/
theorem entry_room {a : Text} {amount : UInt64} (room : state.totalBalance + amount.toNat < 2 ^ 64) :
    ∃ balance, checkedAdd (entryOrInsert state.accounts a).balance amount = some balance := by
  have held := state.balanceOf_le_totalBalance a
  obtain ⟨balance, sum⟩ := exists_eq_toNat
    (show (entryOrInsert state.accounts a).balance.toNat + amount.toNat < 2 ^ 64 by
      rw [entry_balance]
      omega)
  exact ⟨balance, checkedAdd_eq_some.mpr sum⟩

/-- While all money together fits a word, a normal transaction that fails
leaves the state as it was: only the check of the receiver comes after a write. -/
theorem applyTransaction_normal (bound : state.totalBalance < 2 ^ 64) (normal : transaction.coinbase = false) :
    (∃ error, state.applyTransaction transaction = (.error (.error error), state)) ∨
      ∃ applied, state.applyTransaction transaction = (.ok (), applied) := by
  unfold applyTransaction
  rw [if_neg (by simp [normal])]
  cases found : state.accounts.lookup transaction.from with
  | none => exact Or.inl ⟨_, rfl⟩
  | some sender =>
    cases cost : checkedAdd transaction.amount transaction.fee with
    | none => exact Or.inl ⟨_, rfl⟩
    | some totalCost =>
      dsimp only
      by_cases poor : sender.balance < totalCost
      · rw [if_pos poor]
        exact Or.inl ⟨_, rfl⟩
      · by_cases stale : sender.nonce ≠ transaction.nonce
        · rw [if_neg poor, if_pos stale]
          exact Or.inl ⟨_, rfl⟩
        · rw [if_neg poor, if_neg stale]
          have affordable := UInt64.not_lt.mp poor
          have left := UInt64.toNat_sub_of_le _ _ affordable
          have spent := checkedAdd_eq_some.mp cost
          have held : state.balanceOf transaction.from = sender.balance := by simp [balanceOf, found]
          have written := totalBalance_insert state transaction.from
            { balance := sender.balance - totalCost, nonce := sender.nonce + 1 }
          rw [UInt64.le_iff_toNat_le] at affordable
          simp only [held] at written
          let senderAccount : Account := { balance := sender.balance - totalCost, nonce := sender.nonce + 1 }
          have debited : ({ state with accounts := state.accounts.insert transaction.from senderAccount } :
              State).totalBalance + transaction.amount.toNat < 2 ^ 64 := by
            simp only [senderAccount]
            omega
          obtain ⟨balance, sum⟩ := entry_room (a := transaction.to) debited
          simp only at sum
          rw [sum]
          exact Or.inr ⟨_, rfl⟩

theorem coinbase_ok (coinbase : transaction.coinbase = true)
    (room : state.totalBalance + transaction.amount.toNat < 2 ^ 64) :
    ∃ applied, state.tryApplyTransaction transaction = .ok applied := by
  obtain ⟨balance, sum⟩ : ∃ balance, checkedAdd (entryOrInsert state.accounts transaction.to).balance
      transaction.amount = some balance := entry_room room
  unfold tryApplyTransaction applyTransaction
  rw [if_pos coinbase]
  simp only [sum]
  exact ⟨_, rfl⟩

/-- Adding to the account of the validator, opened where it is missing. -/
theorem openAndAdd_ok {validator : Text} {amount : UInt64} (room : state.totalBalance + amount.toNat < 2 ^ 64) :
    ∃ credited, (if state.containsKey validator then state else state.createAccount validator 0).addBalance
      validator amount = .ok credited := by
  obtain ⟨balance, sum⟩ : ∃ balance, checkedAdd (entryOrInsert state.accounts validator).balance amount =
      some balance := entry_room room
  unfold containsKey createAccount
  cases known : state.accounts.lookup validator with
  | none =>
    simp only [entryOrInsert, known, Option.getD_none] at sum
    simp only [Option.isSome_none, Bool.false_eq_true, if_false, addBalance, Finmap.lookup_insert, okOr, sum,
      bind_eq_ok, Except.ok.injEq, exists_eq_left', pure_eq_ok, exists_eq']
  | some account =>
    simp only [entryOrInsert, known, Option.getD_some] at sum
    simp only [Option.isSome_some, if_true, addBalance, known, okOr, sum, bind_eq_ok, Except.ok.injEq,
      exists_eq_left', pure_eq_ok, exists_eq']

end State

namespace FeeTotals

/-- The fee loop succeeds when the fees together fit a word. -/
theorem foldlM_charge_ok {economy : Economy}
    (shares : economy.liquidityFeePercent.toNat + economy.treasuryFeePercent.toNat ≤ 100)
    (transactions : List Transaction) (before : FeeTotals) (burn : before.burn = 0)
    (room : before.validator.toNat + before.liquidity.toNat + before.treasury.toNat + totalFee transactions <
      2 ^ 64) :
    ∃ after, transactions.foldlM (charge economy) before = .ok after := by
  induction transactions generalizing before with
  | nil => exact ⟨before, rfl⟩
  | cons transaction rest ih =>
    have split : totalFee (transaction :: rest) = transaction.fee.toNat + totalFee rest := by
      simp [totalFee]
    obtain ⟨parts, distributed⟩ := Economy.distributeFee_ok shares transaction.fee
    obtain ⟨_, _, _, sum, none⟩ := Economy.distributeFee_eq_ok distributed
    obtain ⟨validator, v⟩ := exists_eq_toNat
      (show before.validator.toNat + parts.validator.toNat < 2 ^ 64 by omega)
    obtain ⟨liquidity, l⟩ := exists_eq_toNat
      (show before.liquidity.toNat + parts.liquidity.toNat < 2 ^ 64 by omega)
    obtain ⟨treasury, t⟩ := exists_eq_toNat
      (show before.treasury.toNat + parts.treasury.toNat < 2 ^ 64 by omega)
    have b : before.burn.toNat + parts.burn.toNat = (0 : UInt64).toNat := by rw [burn, none]; rfl
    have first : charge economy before transaction = .ok { validator, liquidity, treasury, burn := 0 } := by
      simp only [charge, add, bind_eq_ok, okOr_eq_ok, checkedAdd_eq_some, pure_eq_ok]
      exact ⟨parts, distributed, validator, v, liquidity, l, treasury, t, 0, b, rfl⟩
    obtain ⟨after, later⟩ := ih { validator, liquidity, treasury, burn := 0 } rfl (by dsimp only; omega)
    exact ⟨after, foldlM_cons_eq_ok.mpr ⟨_, first, later⟩⟩

/-- The collected fees can be credited when each of the three pots has room. -/
theorem credit_ok {totals : FeeTotals} {validator : Text} {state : State} {economy : Economy}
    (unburned : totals.burn = 0) (accounts : state.totalBalance + totals.validator.toNat < 2 ^ 64)
    (treasury : state.treasuryBalance.toNat + totals.treasury.toNat < 2 ^ 64)
    (reserve : economy.liquidityReserve.toNat + totals.liquidity.toNat < 2 ^ 64) :
    ∃ state' economy', totals.credit validator state economy = .ok (state', economy') := by
  obtain ⟨credited, added⟩ : ∃ credited, (if state.containsKey validator then state
      else state.createAccount validator 0).addBalance validator totals.validator = .ok credited :=
    State.openAndAdd_ok accounts
  have receipt := openAndAdd_receives added
  obtain ⟨treasuryBalance, t⟩ := exists_eq_toNat treasury
  obtain ⟨liquidityReserve, l⟩ := exists_eq_toNat reserve
  rw [← receipt.treasury] at t
  have b : credited.burnedAmount.toNat + totals.burn.toNat = credited.burnedAmount.toNat := by
    rw [unburned]
    rfl
  simp only [credit, State.addTreasury, Economy.addLiquidityReserve, State.burn, bind_eq_ok, okOr_eq_ok,
    pure_eq_ok, checkedAdd_eq_some]
  exact ⟨_, _, credited, added, _, ⟨treasuryBalance, t, rfl⟩, _, ⟨liquidityReserve, l, rfl⟩, _,
    ⟨credited.burnedAmount, b, rfl⟩, rfl⟩

end FeeTotals

theorem Economy.mint_ok {economy : Economy} {amount : UInt64}
    (room : economy.totalSupply.toNat + amount.toNat ≤ economy.maxSupply.toNat) :
    ∃ minted, economy.mint amount = .ok minted := by
  have bound := economy.maxSupply.toNat_lt
  obtain ⟨supply, sum⟩ := exists_eq_toNat (show economy.totalSupply.toNat + amount.toNat < 2 ^ 64 by omega)
  have allowed : economy.canMint amount = true := by
    unfold canMint
    rw [checkedAdd_eq_some.mpr sum]
    refine decide_eq_true (UInt64.le_iff_toNat_le.mpr ?_)
    omega
  simp only [mint, allowed, rejectIf, not_true_eq_false, if_false]
  exact ⟨_, rfl⟩

/-- A batch that applies can be settled when the money adds up to the supply,
the fees can be split and the cap leaves room for the reward. -/
theorem Ledger.settle_ok [Crypto] {ledger : Ledger} {block : Block} {normals : List Transaction} {paid : State}
    (normal : ∀ transaction ∈ normals, transaction.coinbase = false)
    (batch : ledger.2.applyTransactionsAtomically normals = .ok paid)
    (money : ledger.2.totalBalance + ledger.2.treasuryBalance.toNat + ledger.1.economy.liquidityReserve.toNat =
      ledger.1.economy.totalSupply.toNat)
    (shares : ledger.1.economy.liquidityFeePercent.toNat + ledger.1.economy.treasuryFeePercent.toNat ≤ 100)
    (room : ledger.1.economy.totalSupply.toNat + ledger.1.economy.blockReward.toNat ≤
      ledger.1.economy.maxSupply.toNat) :
    ∃ after, ledger.settle block normals = .ok after := by
  have bound := ledger.1.economy.maxSupply.toNat_lt
  have pays := State.applyTransactionsAtomically_pays normal batch
  have total := pays.total
  have treasury := pays.treasury
  have room' : FeeTotals.zero.validator.toNat + FeeTotals.zero.liquidity.toNat + FeeTotals.zero.treasury.toNat +
      totalFee normals < 2 ^ 64 := by
    simp only [FeeTotals.zero, UInt64.toNat_zero]
    omega
  obtain ⟨totals, charged⟩ := FeeTotals.foldlM_charge_ok shares normals FeeTotals.zero rfl room'
  have collects := FeeTotals.foldlM_charge_collects charged
  have fees := collects.total
  simp only [FeeTotals.zero, UInt64.toNat_zero, Nat.zero_add] at fees
  rw [← treasury] at money
  obtain ⟨state, economy, credit⟩ : ∃ state economy,
      totals.credit block.validator paid ledger.1.economy = .ok (state, economy) :=
    FeeTotals.credit_ok collects.burn (by omega) (by omega) (by omega)
  obtain ⟨credited, treasuryBalance, liquidityReserve, receipt, _, _, rfl, rfl⟩ :=
    FeeTotals.credit_eq_ok collects.burn credit
  obtain ⟨minted, mint⟩ : ∃ minted, ({ ledger.1.economy with liquidityReserve } : Economy).mint
      ledger.1.economy.blockReward = .ok minted := Economy.mint_ok room
  have share := receipt.total
  have afterwards : credited.totalBalance + ledger.1.economy.blockReward.toNat < 2 ^ 64 := by omega
  obtain ⟨rewarded, reward⟩ : ∃ rewarded, ({ credited with treasuryBalance } : State).tryApplyTransaction
      (Transaction.newCoinbase block.validator ledger.1.economy.blockReward block.index) = .ok rewarded :=
    State.coinbase_ok rfl afterwards
  simp only [settle, bind_eq_ok, pure_eq_ok]
  exact ⟨_, paid, batch, totals, charged, _, credit, minted, mint, rewarded, reward, rfl⟩

end Kybernetes
