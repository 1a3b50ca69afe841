import Kybernetes.Base.Result
import Kybernetes.Base.Checked
import Kybernetes.Protocol

namespace Kybernetes

structure Economy where
  totalSupply : UInt64
  maxSupply : UInt64
  blockReward : UInt64
  minimumFee : UInt64
  feeDivisor : UInt64
  liquidityReserve : UInt64
  validatorFeePercent : UInt64
  liquidityFeePercent : UInt64
  treasuryFeePercent : UInt64
  burnFeePercent : UInt64
deriving DecidableEq, Repr

/-- The shares `distribute_fee` returns as a tuple. -/
structure FeeShares where
  validator : UInt64
  liquidity : UInt64
  treasury : UInt64
  burn : UInt64
deriving DecidableEq, Repr

namespace Economy

def new : Economy where
  totalSupply := 0
  maxSupply := maxSupplyMicroKbn
  blockReward := blockRewardMicroKbn
  minimumFee := minTransactionFeeMicroKbn
  feeDivisor := transactionFeeDivisor
  liquidityReserve := 0
  validatorFeePercent := Kybernetes.validatorFeePercent
  liquidityFeePercent := liquidityReserveFeePercent
  treasuryFeePercent := Kybernetes.treasuryFeePercent
  burnFeePercent := Kybernetes.burnFeePercent

def calculateFee (self : Economy) (amount : UInt64) : UInt64 :=
  max (amount / max self.feeDivisor 1) self.minimumFee

def validateFee (self : Economy) (amount fee : UInt64) : Bool :=
  fee == self.calculateFee amount

/-- The products are taken in `u128`, where two `u64` factors cannot overflow. -/
def distributeFee (self : Economy) (fee : UInt64) : Result FeeShares := do
  let liquidity ← expect (u64TryFrom (fee.toNat * self.liquidityFeePercent.toNat / 100))
    "Liquidity Reserve fee exceeds u64 range"
  let treasury ← expect (u64TryFrom (fee.toNat * self.treasuryFeePercent.toNat / 100))
    "Treasury fee exceeds u64 range"
  let validator ← expect ((checkedSub fee liquidity).bind fun remaining => checkedSub remaining treasury)
    "Liquidity Reserve and treasury shares exceed the total fee"
  return { validator, liquidity, treasury, burn := 0 }

def addLiquidityReserve (self : Economy) (amount : UInt64) : Result Economy := do
  let liquidityReserve ← okOr (checkedAdd self.liquidityReserve amount) "Liquidity Reserve overflow"
  return { self with liquidityReserve }

def canMint (self : Economy) (amount : UInt64) : Bool :=
  match checkedAdd self.totalSupply amount with
  | some newSupply => newSupply ≤ self.maxSupply
  | none => false

def mint (self : Economy) (amount : UInt64) : Result Economy := do
  rejectIf (¬ self.canMint amount) "Maximum supply exceeded"
  return { self with totalSupply := self.totalSupply + amount }

def burn (self : Economy) (amount : UInt64) : Economy :=
  if amount ≤ self.totalSupply then { self with totalSupply := self.totalSupply - amount } else self

def rewardValidator (self : Economy) : Result (UInt64 × Economy) := do
  let reward := self.blockReward
  let minted ← self.mint reward
  return (reward, minted)

end Economy

end Kybernetes
