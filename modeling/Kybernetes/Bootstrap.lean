import Kybernetes.Node

namespace Kybernetes

structure CanonicalBootstrap where
  blockchain : Blockchain
  state : State
  consensus : Consensus
  genesisFingerprint : Text
deriving DecidableEq

structure GenesisValidatorConfiguration where
  address : Text
  stake : UInt64
deriving DecidableEq, Repr

structure GenesisAllocation where
  address : Text
  balance : UInt64
deriving DecidableEq, Repr

structure GenesisConfiguration where
  networkId : Text
  networkProtocolVersion : UInt32
  timestamp : UInt64
  validators : List GenesisValidatorConfiguration
  allocations : List GenesisAllocation
  genesisSupply : UInt64
  maxSupply : UInt64
  blockReward : UInt64
  minimumFee : UInt64
  feeDivisor : UInt64
  validatorFeePercent : UInt64
  liquidityFeePercent : UInt64
  treasuryFeePercent : UInt64
  burnFeePercent : UInt64
  initialLiquidityReserve : UInt64
  initialTreasuryBalance : UInt64
  initialBurnedAmount : UInt64
deriving DecidableEq, Repr

namespace Bootstrap

def genesisFingerprintDomain : Text := str "KYBERNETES_GENESIS_CONFIG_V1"

def canonicalGenesisConfiguration : GenesisConfiguration where
  networkId := Kybernetes.networkId
  networkProtocolVersion := Kybernetes.networkProtocolVersion
  timestamp := genesisTimestamp
  validators :=
    [{ address := genesisValidatorAAddress, stake := genesisValidatorAStake },
      { address := genesisValidatorBAddress, stake := genesisValidatorBStake }]
  allocations :=
    [{ address := genesisValidatorAAddress, balance := genesisValidatorAAllocationMicroKbn },
      { address := genesisValidatorBAddress, balance := genesisValidatorBAllocationMicroKbn }]
  genesisSupply := genesisSupplyMicroKbn
  maxSupply := Economy.new.maxSupply
  blockReward := Economy.new.blockReward
  minimumFee := Economy.new.minimumFee
  feeDivisor := Economy.new.feeDivisor
  validatorFeePercent := Economy.new.validatorFeePercent
  liquidityFeePercent := Economy.new.liquidityFeePercent
  treasuryFeePercent := Economy.new.treasuryFeePercent
  burnFeePercent := Economy.new.burnFeePercent
  initialLiquidityReserve := Economy.new.liquidityReserve
  initialTreasuryBalance := 0
  initialBurnedAmount := 0

def appendString (buffer : Bytes) (value : Text) : Result Bytes := do
  let length ← okOr (u64TryFrom value.length) "Genesis string length overflow"
  return buffer ++ u64ToBeBytes length ++ value

def appendCount (buffer : Bytes) (count : Nat) : Result Bytes := do
  let count ← okOr (u64TryFrom count) "Genesis list length overflow"
  return buffer ++ u64ToBeBytes count

/-- The bytes `genesis_configuration_fingerprint` hashes. -/
def fingerprintData (configuration : GenesisConfiguration) : Result Bytes := do
  let canonical ← appendString [] genesisFingerprintDomain
  let canonical ← appendString canonical configuration.networkId
  let canonical := canonical ++ bigEndian 4 configuration.networkProtocolVersion.toNat
  let canonical := canonical ++ u64ToBeBytes configuration.timestamp
  let canonical ← appendCount canonical configuration.validators.length
  let canonical ← configuration.validators.foldlM (fun canonical validator => do
    let canonical ← appendString canonical validator.address
    return canonical ++ u64ToBeBytes validator.stake) canonical
  let canonicalAllocations := configuration.allocations.insertionSort
    fun left right => left.address ≤ right.address
  let canonical ← appendCount canonical canonicalAllocations.length
  let canonical ← canonicalAllocations.foldlM (fun canonical allocation => do
    let canonical ← appendString canonical allocation.address
    return canonical ++ u64ToBeBytes allocation.balance) canonical
  return [configuration.genesisSupply, configuration.maxSupply, configuration.blockReward,
    configuration.minimumFee, configuration.feeDivisor, configuration.validatorFeePercent,
    configuration.liquidityFeePercent, configuration.treasuryFeePercent, configuration.burnFeePercent,
    configuration.initialLiquidityReserve, configuration.initialTreasuryBalance,
    configuration.initialBurnedAmount].foldl (fun canonical value => canonical ++ u64ToBeBytes value) canonical

variable [Crypto]

def genesisConfigurationFingerprint (configuration : GenesisConfiguration) : Result Text := do
  let canonical ← fingerprintData configuration
  return sha256Hex canonical

def genesisBlock (configuration : GenesisConfiguration) (fingerprint : Text) : Block :=
  Block.new 0 configuration.timestamp genesisPreviousHash genesisValidator fingerprint []

omit [Crypto] in
/-- The loop that adds the configured validators. -/
def addValidators (consensus : Consensus) (validator : GenesisValidatorConfiguration) : Result Consensus :=
  match consensus.addValidator validator.address validator.stake with
  | (true, consensus) => .ok consensus
  | (false, _) => .error (.error "Canonical genesis validator could not be added")

omit [Crypto] in
/-- The loop that creates the allocated accounts. -/
def addAllocation (state : State) (allocation : GenesisAllocation) : Result State := do
  rejectIf (state.containsKey allocation.address) "Canonical genesis allocation address is duplicated"
  return state.createAccount allocation.address allocation.balance

def buildBootstrap (configuration : GenesisConfiguration) : Result CanonicalBootstrap := do
  rejectIf (configuration.feeDivisor = 0) "Canonical transaction fee divisor cannot be zero"
  let configuredFeePercent ← okOr
    (((checkedAdd configuration.validatorFeePercent configuration.liquidityFeePercent).bind
      fun total => checkedAdd total configuration.treasuryFeePercent).bind
      fun total => checkedAdd total configuration.burnFeePercent)
    "Canonical fee percentages overflow"
  rejectIf (configuredFeePercent ≠ 100) "Canonical fee percentages are invalid"
  let allocatedSupply ← configuration.allocations.foldlM
    (fun total allocation =>
      okOr (checkedAdd total allocation.balance) "Canonical genesis allocation overflow") 0
  rejectIf (allocatedSupply ≠ configuration.genesisSupply)
    "Canonical genesis allocation does not equal the total supply"
  let consensus ← configuration.validators.foldlM addValidators Consensus.new
  let state ← configuration.allocations.foldlM addAllocation State.new
  let state := { state with
    treasuryBalance := configuration.initialTreasuryBalance
    burnedAmount := configuration.initialBurnedAmount }
  let genesisFingerprint ← genesisConfigurationFingerprint configuration
  let blockchain := Blockchain.new (genesisBlock configuration genesisFingerprint)
  let economy := { blockchain.economy with
    maxSupply := configuration.maxSupply
    blockReward := configuration.blockReward
    minimumFee := configuration.minimumFee
    feeDivisor := configuration.feeDivisor
    validatorFeePercent := configuration.validatorFeePercent
    liquidityFeePercent := configuration.liquidityFeePercent
    treasuryFeePercent := configuration.treasuryFeePercent
    burnFeePercent := configuration.burnFeePercent
    liquidityReserve := configuration.initialLiquidityReserve }
  let economy ← economy.mint configuration.genesisSupply
  return { blockchain := { blockchain with economy }, state, consensus, genesisFingerprint }

def canonicalBootstrap : Result CanonicalBootstrap :=
  buildBootstrap canonicalGenesisConfiguration

/-- What the canonical configuration gives, written out. -/
def canonicalFingerprint : Text :=
  match fingerprintData canonicalGenesisConfiguration with
  | .ok canonical => sha256Hex canonical
  | .error _ => []

def canonicalGenesis : Block :=
  genesisBlock canonicalGenesisConfiguration canonicalFingerprint

omit [Crypto] in
def canonicalEconomy : Economy :=
  { Economy.new with totalSupply := genesisSupplyMicroKbn }

omit [Crypto] in
def canonicalState : State :=
  (State.new.createAccount genesisValidatorAAddress genesisValidatorAAllocationMicroKbn).createAccount
    genesisValidatorBAddress genesisValidatorBAllocationMicroKbn

omit [Crypto] in
def canonicalConsensus : Consensus where
  validators :=
    [{ address := genesisValidatorAAddress, stake := genesisValidatorAStake },
      { address := genesisValidatorBAddress, stake := genesisValidatorBStake }]

def canonical : CanonicalBootstrap where
  blockchain := { chain := [canonicalGenesis], economy := canonicalEconomy }
  state := canonicalState
  consensus := canonicalConsensus
  genesisFingerprint := canonicalFingerprint

omit [Crypto] in
theorem fingerprintData_canonical : ∃ data, fingerprintData canonicalGenesisConfiguration = .ok data :=
  ⟨_, rfl⟩

omit [Crypto] in
theorem addValidators_canonical :
    canonicalGenesisConfiguration.validators.foldlM addValidators Consensus.new = .ok canonicalConsensus := by
  decide +kernel

omit [Crypto] in
theorem addAllocation_canonical :
    canonicalGenesisConfiguration.allocations.foldlM addAllocation State.new = .ok canonicalState := by
  decide +kernel

omit [Crypto] in
theorem mint_canonical : Economy.new.mint genesisSupplyMicroKbn = .ok canonicalEconomy := by
  decide +kernel

/-- The canonical configuration passes every check of `build_bootstrap`. -/
theorem canonicalBootstrap_eq : canonicalBootstrap = .ok canonical := by
  obtain ⟨data, hashed⟩ := fingerprintData_canonical
  have named : canonicalFingerprint = sha256Hex data := by
    unfold canonicalFingerprint
    rw [hashed]
  have fingerprint : genesisConfigurationFingerprint canonicalGenesisConfiguration = .ok canonicalFingerprint := by
    rw [named]
    exact bind_eq_ok.mpr ⟨data, hashed, rfl⟩
  refine bind_eq_ok.mpr ⟨(), rejectIf_eq_ok.mpr (by decide), ?_⟩
  refine bind_eq_ok.mpr ⟨100, okOr_eq_ok.mpr (by decide), ?_⟩
  refine bind_eq_ok.mpr ⟨(), rejectIf_eq_ok.mpr (by decide), ?_⟩
  refine bind_eq_ok.mpr ⟨genesisSupplyMicroKbn, by decide, ?_⟩
  refine bind_eq_ok.mpr ⟨(), rejectIf_eq_ok.mpr (by decide), ?_⟩
  refine bind_eq_ok.mpr ⟨canonicalConsensus, addValidators_canonical, ?_⟩
  refine bind_eq_ok.mpr ⟨canonicalState, addAllocation_canonical, ?_⟩
  refine bind_eq_ok.mpr ⟨canonicalFingerprint, fingerprint, ?_⟩
  exact bind_eq_ok.mpr ⟨canonicalEconomy, mint_canonical, rfl⟩

theorem canonicalFingerprint_fixed : isFixedHex canonicalFingerprint hashHexLength = true := by
  obtain ⟨data, hashed⟩ := fingerprintData_canonical
  unfold canonicalFingerprint
  rw [hashed]
  exact isFixedHex_sha256Hex data

end Bootstrap

end Kybernetes
