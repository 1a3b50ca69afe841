import Kybernetes.Reachability

namespace Kybernetes

open Bootstrap

variable [Crypto]

omit [Crypto] in
theorem canonicalState_totalBalance : canonicalState.totalBalance = genesisSupplyMicroKbn.toNat := by
  decide +kernel

namespace Descends

variable {good : Block → Prop} {ledger : Ledger}

theorem policy (descends : Descends good ledger) : ledger.1.economy.policy = Economy.new.policy := by
  obtain ⟨genesis, _, grown⟩ := descends
  exact grown.policy

theorem length_pos (descends : Descends good ledger) : 0 < ledger.1.chain.length := by
  obtain ⟨genesis, _, grown⟩ := descends
  exact grown.length_le

theorem exists_genesis (descends : Descends good ledger) :
    ∃ genesis, ledger.1.chain.head? = some genesis ∧ Rooted canonicalGenesis genesis := by
  cases first : ledger.1.chain.head? with
  | none =>
    have positive := descends.length_pos
    rw [List.head?_eq_none_iff.mp first] at positive
    cases positive
  | some genesis => exact ⟨genesis, rfl, descends.head first⟩

/-- The supply counts the blocks behind the first. -/
theorem supply (descends : Descends good ledger) :
    ledger.1.economy.totalSupply.toNat =
      genesisSupplyMicroKbn.toNat + blockRewardMicroKbn.toNat * (ledger.1.chain.length - 1) := by
  have pos := descends.length_pos
  obtain ⟨genesis, _, grown⟩ := descends
  have supply := grown.supply
  simp only [canonicalLedger, canonicalEconomy, Economy.new, List.length_singleton, Nat.mul_one] at supply
  rw [Nat.mul_sub, Nat.mul_one]
  have least : blockRewardMicroKbn.toNat * 1 ≤ blockRewardMicroKbn.toNat * ledger.1.chain.length :=
    Nat.mul_le_mul_left _ pos
  omega

theorem capped (descends : Descends good ledger) :
    ledger.1.economy.totalSupply ≤ ledger.1.economy.maxSupply := by
  obtain ⟨genesis, _, grown⟩ := descends
  have within : canonicalEconomy.totalSupply ≤ canonicalEconomy.maxSupply := by decide +kernel
  exact grown.supply_le within

theorem money (descends : Descends good ledger) :
    ledger.2.totalBalance + ledger.2.treasuryBalance.toNat + ledger.1.economy.liquidityReserve.toNat =
      ledger.1.economy.totalSupply.toNat := by
  obtain ⟨genesis, _, grown⟩ := descends
  have money := grown.money
  have held : (canonicalLedger genesis).2.totalBalance = genesisSupplyMicroKbn.toNat := canonicalState_totalBalance
  have treasury : (canonicalLedger genesis).2.treasuryBalance.toNat = 0 := rfl
  have reserve : (canonicalLedger genesis).1.economy.liquidityReserve.toNat = 0 := rfl
  have supply : (canonicalLedger genesis).1.economy.totalSupply.toNat = genesisSupplyMicroKbn.toNat := rfl
  omega

/-- The cap on the supply is a cap on the length of the chain. -/
theorem length_le (descends : Descends good ledger) : ledger.1.chain.length ≤ 10 ^ 7 := by
  have supply := descends.supply
  have capped := UInt64.le_iff_toNat_le.mp descends.capped
  have cap : ledger.1.economy.maxSupply = maxSupplyMicroKbn := congrArg Economy.maxSupply descends.policy
  have values : genesisSupplyMicroKbn.toNat = 10 ^ 9 ∧ blockRewardMicroKbn.toNat = 10 ^ 7 ∧
      maxSupplyMicroKbn.toNat = 10 ^ 14 := by decide +kernel
  rw [cap, supply, values.1, values.2.1, values.2.2] at capped
  omega

end Descends

/-- Money is conserved and capped in every node state reached from
`canonical_bootstrap`. -/
theorem Process.run_conserves_money (validatorIdentity : Option Wallet) (file : ChainFile)
    (history : List (Environment × Operation)) :
    let node := ((Process.start canonicalCandidate validatorIdentity).run file history).1.node
    node.state.totalBalance + node.state.treasuryBalance.toNat
        + node.blockchain.economy.liquidityReserve.toNat = node.blockchain.economy.totalSupply.toNat ∧
      node.blockchain.economy.totalSupply.toNat =
        genesisSupplyMicroKbn.toNat + blockRewardMicroKbn.toNat * (node.blockchain.chain.length - 1) ∧
      node.blockchain.economy.totalSupply ≤ node.blockchain.economy.maxSupply := by
  intro node
  have descends := (Process.run_canonical validatorIdentity file history).descends
  exact ⟨descends.money, descends.supply, descends.capped⟩

end Kybernetes
