import Kybernetes.ProducerAgreement
import Kybernetes.Commitment
import Kybernetes.Fees
import Kybernetes.Base.Sorting
import Kybernetes.Base.Strict

namespace Kybernetes

/-- An address and the number behind it, as both lists of the configuration are
written. -/
def entryBytes (entry : Text × UInt64) : Bytes :=
  lengthPrefixed entry.1 ++ u64ToBeBytes entry.2

theorem entryBytes_unambiguous : Unambiguous {entry | entry.1.length < 2 ^ 64} entryBytes := by
  intro a boundA b boundB r s same
  simp only [entryBytes, List.append_assoc] at same
  obtain ⟨address, same⟩ := lengthPrefixed_peel boundA boundB same
  obtain ⟨amount, rest⟩ := u64ToBeBytes_peel same
  exact ⟨Prod.ext address amount, rest⟩

theorem u64ToBeBytes_unambiguous : Unambiguous Set.univ u64ToBeBytes :=
  fun _ _ _ _ _ _ same => u64ToBeBytes_peel same

namespace GenesisConfiguration

def validatorEntries (configuration : GenesisConfiguration) : List (Text × UInt64) :=
  configuration.validators.map fun validator => (validator.address, validator.stake)

def sortedAllocations (configuration : GenesisConfiguration) : List GenesisAllocation :=
  sortByKey (· ≤ ·) GenesisAllocation.address configuration.allocations

def allocationEntries (configuration : GenesisConfiguration) : List (Text × UInt64) :=
  configuration.sortedAllocations.map fun allocation => (allocation.address, allocation.balance)

/-- The numbers that end the hashed data. -/
def amounts (configuration : GenesisConfiguration) : List UInt64 :=
  [configuration.genesisSupply, configuration.maxSupply, configuration.blockReward,
    configuration.minimumFee, configuration.feeDivisor, configuration.validatorFeePercent,
    configuration.liquidityFeePercent, configuration.treasuryFeePercent, configuration.burnFeePercent,
    configuration.initialLiquidityReserve, configuration.initialTreasuryBalance,
    configuration.initialBurnedAmount]

/-- The lengths fit the eight bytes they are written in. -/
structure Encodable (configuration : GenesisConfiguration) : Prop where
  networkId : configuration.networkId.length < 2 ^ 64
  validatorCount : configuration.validatorEntries.length < 2 ^ 64
  validators : ∀ entry ∈ configuration.validatorEntries, entry.1.length < 2 ^ 64
  allocationCount : configuration.allocationEntries.length < 2 ^ 64
  allocations : ∀ entry ∈ configuration.allocationEntries, entry.1.length < 2 ^ 64

def encoded (configuration : GenesisConfiguration) : Bytes :=
  lengthPrefixed Bootstrap.genesisFingerprintDomain ++ lengthPrefixed configuration.networkId
    ++ bigEndian 4 configuration.networkProtocolVersion.toNat ++ u64ToBeBytes configuration.timestamp
    ++ bigEndian 8 configuration.validatorEntries.length ++ configuration.validatorEntries.flatMap entryBytes
    ++ bigEndian 8 configuration.allocationEntries.length ++ configuration.allocationEntries.flatMap entryBytes
    ++ configuration.amounts.flatMap u64ToBeBytes

/-- The configurations differ at most in the order of their allocations. -/
def Agrees (first second : GenesisConfiguration) : Prop :=
  first = { second with allocations := first.allocations } ∧ first.allocations.Perm second.allocations

theorem entries_unambiguous {xs ys : List (Text × UInt64)} {r s : Bytes} (boundX : xs.length < 2 ^ 64)
    (boundY : ys.length < 2 ^ 64) (eachX : ∀ entry ∈ xs, entry.1.length < 2 ^ 64)
    (eachY : ∀ entry ∈ ys, entry.1.length < 2 ^ 64)
    (same : bigEndian 8 xs.length ++ (xs.flatMap entryBytes ++ r) =
      bigEndian 8 ys.length ++ (ys.flatMap entryBytes ++ s)) : xs = ys ∧ r = s := by
  obtain ⟨length, rest⟩ := bigEndian_unambiguous 8 xs.length boundX ys.length boundY _ _ same
  exact entryBytes_unambiguous.flatMap eachX eachY length rest

/-- The hashed data tells every field and both lists, the allocations in the
order of their addresses. -/
theorem encoded_inj {first second : GenesisConfiguration} (encodable : first.Encodable)
    (encodable' : second.Encodable) (same : first.encoded = second.encoded) :
    first = { second with allocations := first.allocations } ∧
      first.sortedAllocations = second.sortedAllocations := by
  simp only [encoded, List.append_assoc] at same
  obtain ⟨networkId, same⟩ :=
    lengthPrefixed_peel encodable.networkId encodable'.networkId (List.append_cancel_left same)
  obtain ⟨version, same⟩ := bigEndian_unambiguous 4 _ first.networkProtocolVersion.toNat_lt _
    second.networkProtocolVersion.toNat_lt _ _ same
  obtain ⟨timestamp, same⟩ := u64ToBeBytes_peel same
  obtain ⟨validators, same⟩ := entries_unambiguous encodable.validatorCount encodable'.validatorCount
    encodable.validators encodable'.validators same
  obtain ⟨allocations, same⟩ := entries_unambiguous encodable.allocationCount encodable'.allocationCount
    encodable.allocations encodable'.allocations same
  have amounts : first.amounts = second.amounts := by
    have length : first.amounts.length = second.amounts.length := rfl
    rw [← List.append_nil (first.amounts.flatMap _), ← List.append_nil (second.amounts.flatMap _)] at same
    exact (u64ToBeBytes_unambiguous.flatMap (fun _ _ => Set.mem_univ _) (fun _ _ => Set.mem_univ _) length same).1
  have validators' : first.validators = second.validators := by
    refine List.map_injective_iff.mpr (fun x y entry => ?_) validators
    cases x
    cases y
    cases entry
    rfl
  refine ⟨?_, ?_⟩
  · simp only [GenesisConfiguration.amounts, List.cons.injEq, and_true] at amounts
    obtain ⟨supply, maxSupply, reward, fee, divisor, validator, liquidity, treasury, burn, reserve, balance,
      burned⟩ := amounts
    have version' := UInt32.toNat_inj.mp version
    cases first
    cases second
    rw [GenesisConfiguration.mk.injEq]
    exact ⟨networkId, version', timestamp, validators', rfl, supply, maxSupply, reward, fee, divisor, validator,
      liquidity, treasury, burn, reserve, balance, burned⟩
  · refine List.map_injective_iff.mpr (fun x y entry => ?_) allocations
    cases x
    cases y
    cases entry
    rfl

theorem allocationEntries_perm {configuration : GenesisConfiguration} {allocations : List GenesisAllocation}
    (perm : allocations.Perm configuration.allocations)
    (distinct : (allocations.map GenesisAllocation.address).Nodup) :
    { configuration with allocations }.allocationEntries = configuration.allocationEntries := by
  unfold allocationEntries sortedAllocations
  rw [(sortByKey_eq_iff_perm distinct).mpr perm]

theorem encoded_perm {configuration : GenesisConfiguration} {allocations : List GenesisAllocation}
    (perm : allocations.Perm configuration.allocations)
    (distinct : (allocations.map GenesisAllocation.address).Nodup) :
    { configuration with allocations }.encoded = configuration.encoded := by
  unfold encoded
  rw [allocationEntries_perm perm distinct]
  rfl

theorem encoded_eq_iff_agrees {first second : GenesisConfiguration} (encodable : first.Encodable)
    (encodable' : second.Encodable) (distinct : (first.allocations.map GenesisAllocation.address).Nodup) :
    first.encoded = second.encoded ↔ first.Agrees second := by
  constructor
  · intro same
    obtain ⟨fields, sorted⟩ := encoded_inj encodable encodable' same
    exact ⟨fields, (sortByKey_eq_iff_perm distinct).mp sorted⟩
  · rintro ⟨fields, perm⟩
    rw [fields, encoded_perm perm distinct]

end GenesisConfiguration

namespace Bootstrap

open GenesisConfiguration

theorem appendString_eq_ok {buffer data : Bytes} {value : Text} :
    appendString buffer value = .ok data ↔ value.length < 2 ^ 64 ∧ data = buffer ++ lengthPrefixed value := by
  simp only [appendString, bind_eq_ok, okOr_eq_ok, u64TryFrom_eq_some, pure_eq_ok]
  constructor
  · rintro ⟨length, same, rfl⟩
    rw [same, u64ToBeBytes, ← same, List.append_assoc]
    exact ⟨by rw [same]; exact length.toNat_lt, rfl⟩
  · rintro ⟨bound, rfl⟩
    obtain ⟨length, same⟩ := exists_eq_toNat bound
    exact ⟨length, same, by rw [u64ToBeBytes, ← same, List.append_assoc, lengthPrefixed]⟩

theorem appendCount_eq_ok {buffer data : Bytes} {count : Nat} :
    appendCount buffer count = .ok data ↔ count < 2 ^ 64 ∧ data = buffer ++ bigEndian 8 count := by
  simp only [appendCount, bind_eq_ok, okOr_eq_ok, u64TryFrom_eq_some, pure_eq_ok]
  constructor
  · rintro ⟨count', rfl, rfl⟩
    exact ⟨count'.toNat_lt, rfl⟩
  · rintro ⟨bound, rfl⟩
    obtain ⟨count', same⟩ := exists_eq_toNat bound
    exact ⟨count', same, by rw [u64ToBeBytes, ← same]⟩

/-- Writing the elements of a list, each as an address and a number. -/
theorem foldlM_entry_eq_ok {α : Type} {address : α → Text} {amount : α → UInt64} {xs : List α}
    {buffer data : Bytes} :
    xs.foldlM (fun canonical x => do
        let canonical ← appendString canonical (address x)
        return canonical ++ u64ToBeBytes (amount x)) buffer = .ok data ↔
      (∀ entry ∈ xs.map fun x => (address x, amount x), entry.1.length < 2 ^ 64) ∧
        data = buffer ++ (xs.map fun x => (address x, amount x)).flatMap entryBytes := by
  have step : ∀ (canonical : Bytes) (x : α) (written : Bytes),
      ((do
        let canonical ← appendString canonical (address x)
        return canonical ++ u64ToBeBytes (amount x)) : Result Bytes) = .ok written ↔
      (address x).length < 2 ^ 64 ∧ written = canonical ++ entryBytes (address x, amount x) := by
    intro canonical x written
    simp only [bind_eq_ok, appendString_eq_ok, pure_eq_ok, entryBytes]
    constructor
    · rintro ⟨_, ⟨bound, rfl⟩, rfl⟩
      exact ⟨bound, List.append_assoc _ _ _⟩
    · rintro ⟨bound, rfl⟩
      exact ⟨_, ⟨bound, rfl⟩, List.append_assoc _ _ _⟩
  rw [foldlM_update_eq_ok step, List.foldl_append_eq_append]
  simp only [List.forall_mem_map, List.flatMap_def, List.map_map, Function.comp_def]

theorem fingerprintData_eq_ok {configuration : GenesisConfiguration} {data : Bytes} :
    fingerprintData configuration = .ok data ↔ configuration.Encodable ∧ data = configuration.encoded := by
  have validatorCount : configuration.validatorEntries.length = configuration.validators.length :=
    List.length_map _
  have allocationCount : configuration.allocationEntries.length = configuration.sortedAllocations.length :=
    List.length_map _
  have written : ∀ buffer, configuration.amounts.foldl (fun canonical value => canonical ++ u64ToBeBytes value)
      buffer = buffer ++ configuration.amounts.flatMap u64ToBeBytes :=
    fun buffer => List.foldl_append_eq_append ..
  simp only [fingerprintData, bind_eq_ok, appendString_eq_ok, appendCount_eq_ok, foldlM_entry_eq_ok, pure_eq_ok,
    encoded, validatorCount, allocationCount]
  constructor
  · rintro ⟨_, ⟨_, rfl⟩, _, ⟨networkId, rfl⟩, _, ⟨count, rfl⟩, _, ⟨validators, rfl⟩, _, ⟨count', rfl⟩, _,
      ⟨allocations, rfl⟩, rfl⟩
    exact ⟨⟨networkId, by rwa [validatorCount], validators, by rwa [allocationCount], allocations⟩, written _⟩
  · rintro ⟨⟨networkId, count, validators, count', allocations⟩, rfl⟩
    rw [validatorCount] at count
    rw [allocationCount] at count'
    exact ⟨_, ⟨by decide, rfl⟩, _, ⟨networkId, rfl⟩, _, ⟨count, rfl⟩, _, ⟨validators, rfl⟩, _, ⟨count', rfl⟩, _,
      ⟨allocations, rfl⟩, written _⟩

theorem foldlM_supply_eq_ok {allocations : List GenesisAllocation} {message : String} {start total : UInt64} :
    allocations.foldlM (fun total allocation => okOr (checkedAdd total allocation.balance) message) start =
        .ok total ↔
      start.toNat + (allocations.map fun allocation => allocation.balance.toNat).sum = total.toNat :=
  foldlM_sum_eq_ok fun _ allocation _ => okOr_eq_ok.trans (checkedAdd_eq_some (b := allocation.balance))

def createAllocated (state : State) (allocation : GenesisAllocation) : State :=
  state.createAccount allocation.address allocation.balance

theorem containsKey_createAllocated {state : State} {allocation : GenesisAllocation} {address : Text} :
    (createAllocated state allocation).containsKey address = false ↔
      address ≠ allocation.address ∧ state.containsKey address = false := by
  unfold createAllocated State.createAccount State.containsKey
  by_cases same : address = allocation.address
  · rw [same]
    simp
  · simp only [Finmap.lookup_insert_of_ne _ same, ne_eq, same, not_false_iff, true_and]

theorem foldlM_addAllocation_eq_ok {allocations : List GenesisAllocation} {state state' : State} :
    allocations.foldlM addAllocation state = .ok state' ↔
      (∀ allocation ∈ allocations, state.containsKey allocation.address = false) ∧
        (allocations.map GenesisAllocation.address).Nodup ∧ state' = allocations.foldl createAllocated state := by
  induction allocations generalizing state with
  | nil =>
    rw [foldlM_nil_eq_ok]
    exact ⟨fun same => ⟨by simp, List.nodup_nil, same.symm⟩, fun same => same.2.2.symm⟩
  | cons allocation rest ih =>
    simp only [foldlM_cons_eq_ok, addAllocation, bind_eq_ok, rejectIf_eq_ok, pure_eq_ok, Bool.not_eq_true,
      List.forall_mem_cons, List.map_cons, List.nodup_cons, List.foldl_cons]
    constructor
    · rintro ⟨_, ⟨_, fresh, rfl⟩, later⟩
      obtain ⟨absent, distinct, rfl⟩ := ih.mp later
      refine ⟨⟨fresh, fun other member => ?_⟩, ⟨?_, distinct⟩, rfl⟩
      · exact (containsKey_createAllocated.mp (absent other member)).2
      · intro member
        obtain ⟨other, inside, same⟩ := List.mem_map.mp member
        exact (containsKey_createAllocated.mp (absent other inside)).1 same
    · rintro ⟨⟨fresh, absent⟩, ⟨new, distinct⟩, rfl⟩
      refine ⟨createAllocated state allocation, ⟨(), fresh, rfl⟩, ih.mpr ⟨fun other member => ?_, distinct, rfl⟩⟩
      refine containsKey_createAllocated.mpr ⟨fun same => new ?_, absent other member⟩
      exact same ▸ List.mem_map_of_mem member

/-- The accounts do not depend on the order of the allocations. -/
theorem foldl_createAllocated_perm {xs ys : List GenesisAllocation} (perm : xs.Perm ys)
    (distinct : (xs.map GenesisAllocation.address).Nodup) (state : State) :
    xs.foldl createAllocated state = ys.foldl createAllocated state := by
  apply perm.foldl_eq'
  intro x memberX y memberY state
  by_cases same : x.address = y.address
  · cases List.inj_on_of_nodup_map distinct memberX memberY same
    rfl
  · unfold createAllocated State.createAccount
    rw [Finmap.insert_insert_of_ne _ same]

/-- The economy before the supply of the genesis is minted. -/
def configuredEconomy (configuration : GenesisConfiguration) : Economy where
  totalSupply := 0
  maxSupply := configuration.maxSupply
  blockReward := configuration.blockReward
  minimumFee := configuration.minimumFee
  feeDivisor := configuration.feeDivisor
  liquidityReserve := configuration.initialLiquidityReserve
  validatorFeePercent := configuration.validatorFeePercent
  liquidityFeePercent := configuration.liquidityFeePercent
  treasuryFeePercent := configuration.treasuryFeePercent
  burnFeePercent := configuration.burnFeePercent

variable [Crypto]

/-- What `build_bootstrap` asks of a configuration and what it makes of it. -/
structure Accepted (configuration : GenesisConfiguration) (bootstrap : CanonicalBootstrap) : Prop where
  divisor : configuration.feeDivisor ≠ 0
  percent : configuration.validatorFeePercent.toNat + configuration.liquidityFeePercent.toNat +
    configuration.treasuryFeePercent.toNat + configuration.burnFeePercent.toNat = 100
  supply : (configuration.allocations.map fun allocation => allocation.balance.toNat).sum =
    configuration.genesisSupply.toNat
  distinct : (configuration.allocations.map GenesisAllocation.address).Nodup
  encodable : configuration.Encodable
  consensus : configuration.validators.foldlM addValidators Consensus.new = .ok bootstrap.consensus
  state : bootstrap.state = { configuration.allocations.foldl createAllocated State.new with
    treasuryBalance := configuration.initialTreasuryBalance
    burnedAmount := configuration.initialBurnedAmount }
  fingerprint : bootstrap.genesisFingerprint = sha256Hex configuration.encoded
  chain : bootstrap.blockchain.chain = [genesisBlock configuration bootstrap.genesisFingerprint]
  economy : (configuredEconomy configuration).mint configuration.genesisSupply = .ok bootstrap.blockchain.economy

theorem buildBootstrap_eq_ok {configuration : GenesisConfiguration} {bootstrap : CanonicalBootstrap} :
    buildBootstrap configuration = .ok bootstrap ↔ Accepted configuration bootstrap := by
  simp only [buildBootstrap, genesisConfigurationFingerprint, bind_eq_ok, rejectIf_eq_ok, okOr_eq_ok, pure_eq_ok,
    Option.bind_eq_some_iff, checkedAdd_eq_some, foldlM_supply_eq_ok, foldlM_addAllocation_eq_ok,
    fingerprintData_eq_ok, not_not]
  constructor
  · rintro ⟨_, divisor, _, ⟨_, ⟨_, first, second⟩, third⟩, _, rfl, _, sum, _, rfl, consensus, validators, _,
      ⟨_, distinct, rfl⟩, fingerprint, ⟨_, ⟨encodable, rfl⟩, rfl⟩, economy, minted, rfl⟩
    have percent : (100 : UInt64).toNat = 100 := rfl
    exact ⟨divisor, by omega, by simpa using sum, distinct, encodable, validators, rfl, rfl, rfl, minted⟩
  · rintro ⟨divisor, percent, supply, distinct, encodable, consensus, state, fingerprint, chain, economy⟩
    obtain ⟨first, firstEq⟩ := exists_eq_toNat (show configuration.validatorFeePercent.toNat +
      configuration.liquidityFeePercent.toNat < 2 ^ 64 by omega)
    obtain ⟨second, secondEq⟩ := exists_eq_toNat (show first.toNat + configuration.treasuryFeePercent.toNat < 2 ^ 64
      by omega)
    have third : second.toNat + configuration.burnFeePercent.toNat = (100 : UInt64).toNat := by
      rw [← secondEq, ← firstEq, percent]
      rfl
    have fresh : ∀ allocation ∈ configuration.allocations, State.new.containsKey allocation.address = false := by
      intro allocation _
      rfl
    have sum : UInt64.toNat 0 + (configuration.allocations.map fun x => x.balance.toNat).sum =
        configuration.genesisSupply.toNat := by
      rw [supply]
      exact Nat.zero_add _
    refine ⟨(), divisor, 100, ⟨second, ⟨first, firstEq, secondEq⟩, third⟩, (), rfl, _, sum, (), rfl, _, consensus,
      _, ⟨fresh, distinct, rfl⟩, _, ⟨_, ⟨encodable, rfl⟩, rfl⟩, _, economy, ?_⟩
    obtain ⟨⟨blocks, economy'⟩, state', consensus', fingerprint'⟩ := bootstrap
    simp only at state fingerprint chain
    rw [state, chain, fingerprint]
    rfl

/-- The order of the allocations shows in nothing that is made of them. -/
theorem Accepted.of_perm {configuration : GenesisConfiguration} {allocations : List GenesisAllocation}
    {bootstrap : CanonicalBootstrap} (accepted : Accepted { configuration with allocations } bootstrap)
    (perm : allocations.Perm configuration.allocations) : Accepted configuration bootstrap := by
  have entries := allocationEntries_perm perm accepted.distinct
  obtain ⟨networkId, validatorCount, validators, allocationCount, each⟩ := accepted.encodable
  rw [entries] at allocationCount each
  refine ⟨accepted.divisor, accepted.percent, ?_, ?_, ⟨networkId, validatorCount, validators, allocationCount, each⟩,
    accepted.consensus, ?_, ?_, accepted.chain, accepted.economy⟩
  · rw [← accepted.supply, (perm.map fun allocation => allocation.balance.toNat).sum_eq]
  · exact (perm.map GenesisAllocation.address).nodup_iff.mp accepted.distinct
  · rw [← foldl_createAllocated_perm perm accepted.distinct]
    exact accepted.state
  · rw [← encoded_perm perm accepted.distinct]
    exact accepted.fingerprint

theorem buildBootstrap_of_agrees {first second : GenesisConfiguration} {bootstrap : CanonicalBootstrap}
    (accepted : buildBootstrap first = .ok bootstrap) (agrees : first.Agrees second) :
    buildBootstrap second = .ok bootstrap := by
  obtain ⟨fields, perm⟩ := agrees
  rw [buildBootstrap_eq_ok] at accepted ⊢
  rw [fields] at accepted
  exact accepted.of_perm perm

/-- The fingerprint is taken of data that tells two configurations apart unless
they differ in nothing but the order of their allocations, and then all that is
built of them is the same. -/
theorem fingerprintData_binds {first second : GenesisConfiguration} {bootstrap bootstrap' : CanonicalBootstrap}
    (accepted : buildBootstrap first = .ok bootstrap) (accepted' : buildBootstrap second = .ok bootstrap') :
    ∃ data data', fingerprintData first = .ok data ∧ fingerprintData second = .ok data' ∧
      (data = data' ↔ first.Agrees second) ∧ (data = data' → bootstrap = bootstrap') := by
  have checked := buildBootstrap_eq_ok.mp accepted
  have checked' := buildBootstrap_eq_ok.mp accepted'
  have agrees := GenesisConfiguration.encoded_eq_iff_agrees checked.encodable checked'.encodable checked.distinct
  refine ⟨first.encoded, second.encoded, fingerprintData_eq_ok.mpr ⟨checked.encodable, rfl⟩,
    fingerprintData_eq_ok.mpr ⟨checked'.encodable, rfl⟩, agrees, fun same => ?_⟩
  have built := buildBootstrap_of_agrees accepted (agrees.mp same)
  exact Except.ok.inj (built.symm.trans accepted')

end Bootstrap

open Bootstrap

/-- The canonical configuration with its allocations turned around. -/
def Fixture.reversed : GenesisConfiguration :=
  { canonicalGenesisConfiguration with allocations := canonicalGenesisConfiguration.allocations.reverse }

open Fixture in
theorem Fixture.reversed_same_data : ∃ data, fingerprintData canonicalGenesisConfiguration = .ok data ∧
    fingerprintData reversed = .ok data := by
  have agrees : canonicalGenesisConfiguration.Agrees reversed := ⟨rfl, (List.reverse_perm _).symm⟩
  obtain ⟨data, data', hashed, hashed', binds, _⟩ :=
    fingerprintData_binds canonicalBootstrap_eq (buildBootstrap_of_agrees canonicalBootstrap_eq agrees)
  rw [binds.mpr agrees] at hashed
  exact ⟨data', hashed, hashed'⟩

end Kybernetes
