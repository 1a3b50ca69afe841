import Kybernetes.Production

namespace Kybernetes

variable [Crypto]

/-- A ledger that was built from another one block at a time, where every
block added is a `good` one. -/
inductive Grown (consensus : Consensus) (good : Block → Prop) (start : Ledger) : Ledger → Prop
  | start : Grown consensus good start start
  | block {ledger after : Ledger} {block : Block} {normals : List Transaction}
      (before : Grown consensus good start ledger) (accepted : good block)
      (admissible : Admissible consensus ledger.1 block normals)
      (settled : ledger.settle block normals = .ok after) : Grown consensus good start after

/-- What remains of an economy when its two amounts are left out. -/
def Economy.policy (economy : Economy) : Economy :=
  { economy with totalSupply := 0, liquidityReserve := 0 }

omit [Crypto] in
theorem Economy.policy_with (economy : Economy) (totalSupply liquidityReserve : UInt64) :
    ({ economy with totalSupply, liquidityReserve } : Economy).policy = economy.policy :=
  rfl

/-- A transaction is judged by the fee policy, not by the amounts. -/
theorem Transaction.Genuine.of_policy {economy economy' : Economy} {transaction : Transaction}
    (genuine : transaction.Genuine economy) (same : economy'.policy = economy.policy) :
    transaction.Genuine economy' := by
  have divisor := congrArg Economy.feeDivisor same
  have minimum := congrArg Economy.minimumFee same
  simp only [Economy.policy] at divisor minimum
  have fee : economy'.validateFee transaction.amount transaction.fee = true := by
    rw [← genuine.fee]
    unfold Economy.validateFee Economy.calculateFee
    rw [divisor, minimum]
  exact { genuine with fee }

theorem Admissible.settles {consensus : Consensus} {before after : Ledger} {block : Block}
    {normals : List Transaction} (admissible : Admissible consensus before.1 block normals)
    (settled : before.settle block normals = .ok after) : Settles before block normals after :=
  Ledger.settle_settles (fun transaction member => (admissible.genuine transaction member).normal) settled

namespace Grown

variable {consensus : Consensus} {good good' : Block → Prop} {start middle ledger after : Ledger}

theorem mono (weaker : ∀ block, good block → good' block) (grown : Grown consensus good start ledger) :
    Grown consensus good' start ledger := by
  induction grown with
  | start => exact .start
  | block before accepted admissible settled ih => exact .block ih (weaker _ accepted) admissible settled

theorem trans (first : Grown consensus good start middle) (second : Grown consensus good middle ledger) :
    Grown consensus good start ledger := by
  induction second with
  | start => exact first
  | block before accepted admissible settled ih => exact .block ih accepted admissible settled

theorem policy (grown : Grown consensus good start ledger) :
    ledger.1.economy.policy = start.1.economy.policy := by
  induction grown with
  | start => rfl
  | block before accepted admissible settled ih =>
    obtain ⟨supply, liquidity, same⟩ := (admissible.settles settled).policy
    rw [same, Economy.policy_with, ih]

/-- The blocks of the start stay in front, and every block behind them is good. -/
theorem chain (grown : Grown consensus good start ledger) :
    ∃ added, ledger.1.chain = start.1.chain ++ added ∧ ∀ block ∈ added, good block := by
  induction grown with
  | start => exact ⟨[], by simp⟩
  | @block ledger after block normals before accepted admissible settled ih =>
    obtain ⟨added, shape, all⟩ := ih
    refine ⟨added ++ [block], ?_, ?_⟩
    · rw [(admissible.settles settled).chain, shape, List.append_assoc]
    · intro b member
      rcases List.mem_append.mp member with old | new
      · exact all b old
      · rw [List.mem_singleton.mp new]
        exact accepted

theorem length_le (grown : Grown consensus good start ledger) :
    start.1.chain.length ≤ ledger.1.chain.length := by
  obtain ⟨added, shape, _⟩ := grown.chain
  rw [shape, List.length_append]
  omega

/-- Every added block mints one reward, so the supply counts the blocks. -/
theorem supply (grown : Grown consensus good start ledger) :
    ledger.1.economy.totalSupply.toNat + start.1.economy.blockReward.toNat * start.1.chain.length =
      start.1.economy.totalSupply.toNat + start.1.economy.blockReward.toNat * ledger.1.chain.length := by
  induction grown with
  | start => rfl
  | block before accepted admissible settled ih =>
    have step := admissible.settles settled
    have reward := congrArg Economy.blockReward before.policy
    simp only [Economy.policy] at reward
    rw [step.chain, step.supply, List.length_append, List.length_singleton]
    rw [reward, Nat.mul_add, Nat.mul_one]
    omega

theorem supply_le (grown : Grown consensus good start ledger)
    (within : start.1.economy.totalSupply ≤ start.1.economy.maxSupply) :
    ledger.1.economy.totalSupply ≤ ledger.1.economy.maxSupply := by
  cases grown with
  | start => exact within
  | block before accepted admissible settled =>
    have step := admissible.settles settled
    obtain ⟨supply, liquidity, same⟩ := step.policy
    have capped := step.capped
    have cap := congrArg Economy.maxSupply same
    simp only at cap
    rwa [cap]

/-- Money enters only as rewards. -/
theorem money (grown : Grown consensus good start ledger) :
    ledger.2.totalBalance + ledger.2.treasuryBalance.toNat + ledger.1.economy.liquidityReserve.toNat
        + start.1.economy.totalSupply.toNat =
      start.2.totalBalance + start.2.treasuryBalance.toNat + start.1.economy.liquidityReserve.toNat
        + ledger.1.economy.totalSupply.toNat := by
  induction grown with
  | start => rfl
  | block before accepted admissible settled ih =>
    have step := admissible.settles settled
    have total := step.total
    have supply := step.supply
    omega

end Grown

end Kybernetes
