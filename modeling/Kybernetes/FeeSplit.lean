import Kybernetes.GenesisBinding

namespace Kybernetes

open Bootstrap

/-- Every party gets its percentage of the fee rounded down, and the validator
also what the rounding leaves. -/
structure FollowsSplit (configuration : GenesisConfiguration) (fee : UInt64) (shares : FeeShares) : Prop where
  sum : shares.validator.toNat + shares.liquidity.toNat + shares.treasury.toNat + shares.burn.toNat = fee.toNat
  liquidity : shares.liquidity.toNat = fee.toNat * configuration.liquidityFeePercent.toNat / 100
  treasury : shares.treasury.toNat = fee.toNat * configuration.treasuryFeePercent.toNat / 100
  burn : shares.burn.toNat = fee.toNat * configuration.burnFeePercent.toNat / 100
  validator_ge : fee.toNat * configuration.validatorFeePercent.toNat / 100 ≤ shares.validator.toNat
  validator_lt : shares.validator.toNat < fee.toNat * configuration.validatorFeePercent.toNat / 100 + 4

/-- What the code does with a fee: nothing is burned, so the validator has the
burn percentage too. -/
structure SplitsFee (configuration : GenesisConfiguration) (fee : UInt64) (shares : FeeShares) : Prop where
  sum : shares.validator.toNat + shares.liquidity.toNat + shares.treasury.toNat + shares.burn.toNat = fee.toNat
  liquidity : shares.liquidity.toNat = fee.toNat * configuration.liquidityFeePercent.toNat / 100
  treasury : shares.treasury.toNat = fee.toNat * configuration.treasuryFeePercent.toNat / 100
  burn : shares.burn = 0
  validator_ge : fee.toNat * (configuration.validatorFeePercent.toNat + configuration.burnFeePercent.toNat) / 100 ≤
    shares.validator.toNat
  validator_lt : shares.validator.toNat <
    fee.toNat * (configuration.validatorFeePercent.toNat + configuration.burnFeePercent.toNat) / 100 + 3

/-- The four products of a fee with percentages that add up to the whole. -/
theorem percent_products {configuration : GenesisConfiguration} (fee : UInt64)
    (percent : configuration.validatorFeePercent.toNat + configuration.liquidityFeePercent.toNat +
      configuration.treasuryFeePercent.toNat + configuration.burnFeePercent.toNat = 100) :
    fee.toNat * configuration.validatorFeePercent.toNat + fee.toNat * configuration.liquidityFeePercent.toNat +
      fee.toNat * configuration.treasuryFeePercent.toNat + fee.toNat * configuration.burnFeePercent.toNat =
        100 * fee.toNat := by
  rw [← Nat.mul_add, ← Nat.mul_add, ← Nat.mul_add, percent, Nat.mul_comm]

/-- The split that is made is the configured one as long as the burn share
rounds to nothing. -/
theorem SplitsFee.followsSplit_iff {configuration : GenesisConfiguration} {fee : UInt64} {shares : FeeShares}
    (splits : SplitsFee configuration fee shares)
    (percent : configuration.validatorFeePercent.toNat + configuration.liquidityFeePercent.toNat +
      configuration.treasuryFeePercent.toNat + configuration.burnFeePercent.toNat = 100) :
    FollowsSplit configuration fee shares ↔ fee.toNat * configuration.burnFeePercent.toNat < 100 := by
  obtain ⟨sum, liquidity, treasury, burn, least, most⟩ := splits
  have products := percent_products fee percent
  have none : shares.burn.toNat = 0 := by
    rw [burn]
    rfl
  rw [Nat.mul_add] at least most
  constructor
  · intro follows
    have rounded := follows.burn
    omega
  · intro small
    exact ⟨sum, liquidity, treasury, by omega, by omega, by omega⟩

section

variable [Crypto]

theorem Bootstrap.Accepted.economy_percent {configuration : GenesisConfiguration} {bootstrap : CanonicalBootstrap}
    (accepted : Accepted configuration bootstrap) :
    bootstrap.blockchain.economy.liquidityFeePercent = configuration.liquidityFeePercent ∧
      bootstrap.blockchain.economy.treasuryFeePercent = configuration.treasuryFeePercent := by
  obtain ⟨totalSupply, _, _, minted⟩ := Economy.mint_eq_ok accepted.economy
  rw [minted]
  exact ⟨rfl, rfl⟩

/-- The shares of any fee under any accepted configuration, and when they are
those of the configured split. -/
theorem Bootstrap.distributeFee_splitsFee {configuration : GenesisConfiguration} {bootstrap : CanonicalBootstrap}
    (accepted : buildBootstrap configuration = .ok bootstrap) (fee : UInt64) :
    ∃ shares, bootstrap.blockchain.economy.distributeFee fee = .ok shares ∧
      SplitsFee configuration fee shares ∧
      (FollowsSplit configuration fee shares ↔ fee.toNat * configuration.burnFeePercent.toNat < 100) := by
  have checked := buildBootstrap_eq_ok.mp accepted
  have percent := checked.percent
  have products := percent_products fee percent
  obtain ⟨liquidityPercent, treasuryPercent⟩ := checked.economy_percent
  have within : bootstrap.blockchain.economy.liquidityFeePercent.toNat +
      bootstrap.blockchain.economy.treasuryFeePercent.toNat ≤ 100 := by
    rw [liquidityPercent, treasuryPercent]
    omega
  obtain ⟨shares, distributed⟩ := Economy.distributeFee_ok within fee
  obtain ⟨liquidity, treasury, sum, burn⟩ := Economy.distributeFee_shares distributed
  rw [liquidityPercent] at liquidity
  rw [treasuryPercent] at treasury
  have none : shares.burn.toNat = 0 := by
    rw [burn]
    rfl
  have splits : SplitsFee configuration fee shares := by
    refine ⟨by omega, liquidity, treasury, burn, ?_, ?_⟩
    · rw [Nat.mul_add]
      omega
    · rw [Nat.mul_add]
      omega
  exact ⟨shares, distributed, splits, splits.followsSplit_iff percent⟩

end

open Fixture in
theorem Fixture.thousand_follows_split : ∃ shares, canonical.blockchain.economy.distributeFee 1000 = .ok shares ∧
    FollowsSplit canonicalGenesisConfiguration 1000 shares := by
  obtain ⟨shares, distributed, _, follows⟩ := distributeFee_splitsFee canonicalBootstrap_eq 1000
  exact ⟨shares, distributed, follows.mpr (by decide)⟩

section

variable [Crypto]

namespace Fixture

omit [Crypto] in
/-- The canonical configuration with five percent taken from the validators to
be burned. -/
def burning : GenesisConfiguration :=
  { canonicalGenesisConfiguration with validatorFeePercent := 10, burnFeePercent := 5 }

omit [Crypto] in
def burningEconomy : Economy :=
  { canonicalEconomy with validatorFeePercent := 10, burnFeePercent := 5 }

def burningBootstrap : CanonicalBootstrap where
  blockchain := { chain := [genesisBlock burning (sha256Hex burning.encoded)], economy := burningEconomy }
  state := canonicalState
  consensus := canonicalConsensus
  genesisFingerprint := sha256Hex burning.encoded

theorem burning_accepted : buildBootstrap burning = .ok burningBootstrap := by
  have hashed : ∃ data, fingerprintData burning = .ok data := ⟨_, rfl⟩
  obtain ⟨data, hashed⟩ := hashed
  have encodable := (fingerprintData_eq_ok.mp hashed).1
  have minted : (configuredEconomy burning).mint burning.genesisSupply = .ok burningEconomy := by decide +kernel
  have distinct : (burning.allocations.map GenesisAllocation.address).Nodup := by decide +kernel
  exact buildBootstrap_eq_ok.mpr ⟨by decide, by decide, by decide, distinct, encodable, addValidators_canonical, rfl,
    rfl, rfl, minted⟩

end Fixture

end

open Fixture in
/-- The validator has the part of the fee that was to be burned. -/
theorem Fixture.burn_share_is_not_burned :
    buildBootstrap burning = .ok burningBootstrap ∧
      burningBootstrap.blockchain.economy.distributeFee 1000 =
        .ok { validator := 150, liquidity := 800, treasury := 50, burn := 0 } ∧
      ¬ FollowsSplit burning 1000 { validator := 150, liquidity := 800, treasury := 50, burn := 0 } := by
  refine ⟨burning_accepted, by decide +kernel, fun follows => ?_⟩
  exact absurd follows.burn (by decide)

end Kybernetes
