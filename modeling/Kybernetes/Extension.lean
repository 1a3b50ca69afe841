import Kybernetes.ChainValidity
import Kybernetes.HealthyLedger
import Kybernetes.Selection

namespace Kybernetes

open Bootstrap
open Process (canonicalCandidate)

section

variable [Crypto]

/-- The block that `create_block_from_mempool` builds of its choice. -/
def Node.candidateBlock (node : Node) (timestamp : UInt64) (wallet : Wallet) (tip : Block)
    (normals : List Transaction) : Block :=
  let index := UInt64.ofNat node.blockchain.chain.length
  let coinbase := Transaction.newCoinbase wallet.address node.blockchain.economy.blockReward index
  let block := Block.new index timestamp tip.hash wallet.address wallet.publicKeyHex (normals ++ [coinbase])
  block.withSignature (wallet.sign block.hash)

/-- An admissible choice that settles is prepared. -/
theorem Node.prepareBlock_of_admissible {node : Node} {now : SystemTime} {timestamp : UInt64} {wallet : Wallet}
    {tip : Block} {normals : List Transaction} {after : Ledger}
    (choice : (node.mempool.takeValidTransactions node.state).1 = normals)
    (last : node.blockchain.chain.getLast? = some tip) (later : tip.timestamp < timestamp)
    (future : Blockchain.validateFutureTimestamp now timestamp = .ok ())
    (admissible : Admissible node.consensus node.blockchain (node.candidateBlock timestamp wallet tip normals) normals)
    (settled : node.ledger.settle (node.candidateBlock timestamp wallet tip normals) normals = .ok after) :
    ∃ mempool, node.prepareBlock now timestamp wallet =
      .ok (node.candidateBlock timestamp wallet tip normals, after.1, mempool, after.2) := by
  obtain ⟨validator, selection, address⟩ := Option.map_eq_some_iff.mp admissible.selected
  have allowed := Consensus.selectValidatorFromHash_allowed selection
  rw [address] at allowed
  have pending : node.mempool.isEmpty = false := by
    obtain ⟨transaction, member⟩ := List.exists_mem_of_ne_nil _ admissible.nonempty
    rw [← choice] at member
    exact List.isEmpty_eq_false_iff.mpr (List.ne_nil_of_mem (Mempool.takeValidTransactions_mem member))
  simp only [Ledger.settle, Node.ledger, bind_eq_ok, pure_eq_ok] at settled
  obtain ⟨paid, batch, totals, charged, ⟨shared, economy⟩, credit, minted, mint, rewarded, reward, rfl⟩ := settled
  have unburned := (FeeTotals.foldlM_charge_collects charged).burn
  obtain ⟨credited, treasury, liquidity, _, _, _, _, rfl⟩ := FeeTotals.credit_eq_ok unburned credit
  have unique := Blockchain.validateTransactionIdUniqueness_eq_ok.mpr ⟨admissible.distinct, admissible.fresh⟩
  simp only [prepareBlock, Blockchain.createBlockFromMempool, bind_eq_ok, rejectIf_eq_ok, okOr_eq_ok, pure_eq_ok,
    exists_const, forM_eq_ok, ne_eq, not_not, UInt64.not_le, Economy.rewardValidator]
  rw [choice]
  refine ⟨_, allowed, tip, last, validator, selection, address, by rw [pending]; simp, tip, last, later, (), future,
    admissible.nonempty, fun transaction member => (admissible.genuine transaction member).fee, paid, batch,
    totals, charged, _, credit, _, ⟨minted, mint, rfl⟩, rewarded, reward, (), admissible.blockSizes, (), unique, rfl⟩

variable {start : Ledger} {genesis tip : Block} {added : List Block} {node : Node} {timestamp : UInt64}
  {wallet : Wallet} {normals : List Transaction}

/-- The messages a node hashes when it goes on from its chain. -/
def Node.messages (node : Node) (wallet : Wallet) : Set Bytes :=
  messagesOf (node.blockchain.transactions ++ node.mempool.transactions ++
    [Transaction.newCoinbase wallet.address node.blockchain.economy.blockReward
      (UInt64.ofNat node.blockchain.chain.length)])

/-- Whatever batch of pending transactions applies to a healthy ledger can be
made a block by the selected wallet. -/
theorem Healthy.candidate_admissible (healthy : Healthy start genesis added node.ledger)
    (empty : genesis.transactions = []) (admitted : node.Admitted)
    (memory : node.blockchain.transactions.length + maxNormalTransactionsPerBlock < 2 ^ 64)
    (free : CollisionFree (node.messages wallet)) (last : node.blockchain.chain.getLast? = some tip)
    (later : tip.timestamp < timestamp)
    (selected : (node.consensus.selectValidatorFromHash tip.hash).map Validator.address = some wallet.address)
    (chosen : ∀ transaction ∈ normals, transaction ∈ node.mempool.transactions) (some : normals ≠ [])
    (count : normals.length ≤ maxNormalTransactionsPerBlock) {paid : State}
    (batch : node.state.applyTransactionsAtomically normals = .ok paid) :
    Admissible node.consensus node.blockchain (node.candidateBlock timestamp wallet tip normals) normals := by
  have one := List.length_pos_of_ne_nil some
  have few := healthy.length_le
  have height : node.blockchain.chain.length = added.length + 1 := by
    rw [show node.blockchain.chain = genesis :: added from healthy.chain, List.length_cons]
  have short : node.blockchain.chain.length < 2 ^ 64 := by
    rw [height]
    change added.length ≤ node.blockchain.transactions.length at few
    omega
  have index_ne : UInt64.ofNat node.blockchain.chain.length ≠ 0 := by
    intro zero
    have value := congrArg UInt64.toNat zero
    rw [UInt64.toNat_ofNat_of_lt' short, UInt64.toNat_zero] at value
    omega
  have genuine : ∀ transaction ∈ normals, transaction.Genuine node.blockchain.economy :=
    fun transaction member => admitted transaction (chosen transaction member)
  have smaller : CollisionFree (messagesOf (node.blockchain.transactions ++ normals ++
      [Transaction.newCoinbase wallet.address node.blockchain.economy.blockReward
        (UInt64.ofNat node.blockchain.chain.length)])) := by
    refine free.mono ?_
    rintro data ⟨transaction, member, rfl⟩
    refine ⟨transaction, ?_, rfl⟩
    simp only [List.mem_append] at member ⊢
    rcases member with (old | new) | reward
    · exact Or.inl (Or.inl old)
    · exact Or.inl (Or.inr (chosen transaction new))
    · exact Or.inr reward
  obtain ⟨distinct, fresh⟩ := healthy.ids_fresh empty some
    (show node.blockchain.transactions.length + normals.length < 2 ^ 64 by omega) genuine batch wallet.address_fixed
    smaller
  exact ⟨rfl, genuine, some, count, rfl, index_ne, ⟨tip, last, rfl, later⟩, rfl,
    healthy.hash_fixed (List.mem_of_getLast? last), wallet.address_fixed, wallet.publicKeyHex_fixed,
    ⟨_, rfl, wallet.sign_fixed _⟩, selected, distinct, fresh⟩

/-- On a healthy ledger block production succeeds exactly when the cap on the
supply leaves room for the reward. -/
theorem Healthy.prepareBlock_iff (healthy : Healthy start genesis added node.ledger)
    (empty : genesis.transactions = []) (admitted : node.Admitted)
    (memory : node.blockchain.transactions.length + maxNormalTransactionsPerBlock < 2 ^ 64)
    (free : CollisionFree (node.messages wallet)) (last : node.blockchain.chain.getLast? = some tip)
    (later : tip.timestamp < timestamp) {now : SystemTime}
    (future : Blockchain.validateFutureTimestamp now timestamp = .ok ())
    (selected : (node.consensus.selectValidatorFromHash tip.hash).map Validator.address = some wallet.address)
    (pending : ∃ transaction ∈ node.mempool.transactions, Mempool.Applies node.state transaction) :
    (∃ prepared, node.prepareBlock now timestamp wallet = .ok prepared) ↔
      node.blockchain.economy.totalSupply.toNat + node.blockchain.economy.blockReward.toNat ≤
        node.blockchain.economy.maxSupply.toNat := by
  constructor
  · rintro ⟨⟨block, blockchain, mempool, state⟩, run⟩
    obtain ⟨normals, prepared⟩ := Node.prepareBlock_prepared admitted run
    have step : Settles node.ledger block normals (blockchain, state) := prepared.admissible.settles prepared.settled
    have minted := step.supply
    have capped := UInt64.le_iff_toNat_le.mp step.capped
    simp only [Node.ledger] at minted capped
    omega
  · intro room
    have money := healthy.money
    have bound := node.blockchain.economy.totalSupply.toNat_lt
    have normal : ∀ transaction ∈ node.mempool.transactions, transaction.coinbase = false :=
      fun transaction member => (admitted transaction member).normal
    have bounded : node.state.totalBalance < 2 ^ 64 := by
      simp only [Node.ledger] at money
      omega
    obtain ⟨some, count, paid, batch⟩ := Mempool.takeValidTransactions_applies bounded normal pending
    have chosen : ∀ transaction ∈ (node.mempool.takeValidTransactions node.state).1,
        transaction ∈ node.mempool.transactions := fun _ => Mempool.takeValidTransactions_mem
    have admissible : Admissible node.consensus node.blockchain (node.candidateBlock timestamp wallet tip
        (node.mempool.takeValidTransactions node.state).1) (node.mempool.takeValidTransactions node.state).1 :=
      healthy.candidate_admissible empty admitted memory free last later selected chosen some count batch
    have liquidity := congrArg Economy.liquidityFeePercent healthy.policy
    have treasury := congrArg Economy.treasuryFeePercent healthy.policy
    simp only [Economy.policy] at liquidity treasury
    have shares := healthy.shares
    rw [← liquidity, ← treasury] at shares
    obtain ⟨after, settled⟩ : ∃ after, node.ledger.settle (node.candidateBlock timestamp wallet tip
        (node.mempool.takeValidTransactions node.state).1) (node.mempool.takeValidTransactions node.state).1 =
          .ok after :=
      Ledger.settle_ok (fun transaction member => normal transaction (chosen transaction member)) batch money shares
        room
    obtain ⟨mempool, run⟩ := Node.prepareBlock_of_admissible rfl last later future admissible settled
    exact ⟨_, run⟩

/-- What is prepared is produced when its file can be written. -/
theorem Node.produceBlock_ok_iff (admitted : node.Admitted) {now : SystemTime} (file : ChainFile) :
    (∃ block node' file', node.produceBlock now (.ok ()) file timestamp wallet = (.ok block, node', file')) ↔
      ∃ prepared, node.prepareBlock now timestamp wallet = .ok prepared := by
  unfold produceBlock
  cases run : node.prepareBlock now timestamp wallet with
  | error fault => simp
  | ok prepared =>
    obtain ⟨block, blockchain, mempool, state⟩ := prepared
    obtain ⟨normals, built⟩ := Node.prepareBlock_prepared admitted run
    have chain : blockchain.chain = node.blockchain.chain ++ [block] := (built.admissible.settles built.settled).chain
    have nonempty : blockchain.chain ≠ [] := by simp [chain]
    simp only [Storage.saveBlockchainTo, if_neg nonempty]
    exact ⟨fun _ => ⟨_, rfl⟩, fun _ => ⟨_, _, _, rfl⟩⟩

section Runs

variable {economy : Economy} {state : State} {consensus : Consensus}

omit [Crypto] in
theorem canonicalEconomy_shares :
    canonicalEconomy.liquidityFeePercent.toNat + canonicalEconomy.treasuryFeePercent.toNat ≤ 100 := by
  decide +kernel

/-- Being healthy is kept by blocks, and every ledger a replay can begin with is
healthy when the first one is. -/
theorem Healthy.invariant (money : state.totalBalance + state.treasuryBalance.toNat +
      economy.liquidityReserve.toNat = economy.totalSupply.toNat)
    (shares : economy.liquidityFeePercent.toNat + economy.treasuryFeePercent.toNat ≤ 100) :
    LedgerInvariant (Node.new { chain := [genesis], economy } state consensus)
      (fun ledger => ∃ start genesis added, Healthy start genesis added ledger) where
  block := by
    rintro consensus before after block normals ⟨start, genesis, added, healthy⟩ _ admissible settled
    exact ⟨start, genesis, _, healthy.block admissible settled⟩
  canonical :=
    ⟨_, canonicalGenesis, [], .start rfl rfl (Descends.start fun _ => True).money canonicalEconomy_shares⟩
  root _ first rooted := ⟨_, first, [], .start rfl rooted.hash money shares⟩

/-- No operation changes the hash at the front of the chain. -/
theorem Advance.head {env : Environment} {node' : Node} {tasks : List SyncTask} {file file' : ChainFile}
    {operation : Operation} {produced : Option Block}
    (advance : Advance env node tasks file operation node' file' produced) :
    node'.blockchain.chain.head?.map Block.hash = node.blockchain.chain.head?.map Block.hash := by
  have extends_head : ∀ {consensus : Consensus} {block : Block} {normals : List Transaction} {after : Ledger},
      Admissible consensus node.blockchain block normals → node.ledger.settle block normals = .ok after →
      after.1.chain.head? = node.blockchain.chain.head? := by
    intro consensus block normals after admissible settled
    obtain ⟨tip, last, _⟩ := admissible.follows
    obtain ⟨first, rest, shape⟩ := List.exists_cons_of_ne_nil (List.ne_nil_of_mem (List.mem_of_getLast? last))
    have chain : after.1.chain = node.blockchain.chain ++ [block] := (admissible.settles settled).chain
    rw [chain, shape]
    rfl
  cases advance with
  | kept | admitted => rfl
  | received asked written attested future admissible settled =>
    exact congrArg (Option.map Block.hash) (extends_head admissible settled)
  | produced timely prepared =>
    exact congrArg (Option.map Block.hash) (extends_head prepared.admissible prepared.settled)
  | synchronized _ _ asked completes written judged longer first rooted grown chain =>
    rw [first]
    simp only [chain, List.head?_cons, Option.map_some, rooted.same]
  | adopted member longer first head same =>
    rw [first]
    simp only [head, Option.map_some, same]

theorem Process.run_head {origin : Node} (pool : origin.mempool = Mempool.new) (validatorIdentity : Option Wallet)
    (file : ChainFile) (history : List (Environment × Operation)) :
    ((Process.start origin validatorIdentity).run file history).1.node.blockchain.chain.head?.map Block.hash =
      origin.blockchain.chain.head?.map Block.hash := by
  have initial : (Process.start origin validatorIdentity).node.Admitted ∧
      (Process.start origin validatorIdentity).node.blockchain.chain.head?.map Block.hash =
        origin.blockchain.chain.head?.map Block.hash := by
    refine ⟨?_, rfl⟩
    simp [Process.start, Process.node, Node.Admitted, pool, Mempool.new]
  refine (runFrom_invariant (fun config : Process × ChainFile => config.1.node.Admitted ∧
    config.1.node.blockchain.chain.head?.map Block.hash = origin.blockchain.chain.head?.map Block.hash)
    (fun config event before => ?_) initial history).2
  have advance := perform_advances event.1 event.2 config.2 before.1
  exact ⟨advance.admitted' before.1, advance.head.trans before.2⟩

/-- The chain can be extended until the cap on the supply. In every state that a
node reaches from a valid genesis block whose money is the supply, the selected
wallet can produce a block with any pending transaction that applies, as long
as the reward stays within the maximum supply, and not after that. -/
theorem Process.run_produces_iff (state : State) (consensus : Consensus) (validatorIdentity : Option Wallet)
    (file : ChainFile) (history : List (Environment × Operation))
    (valid : Blockchain.isValid { chain := [genesis], economy } = true)
    (money : state.totalBalance + state.treasuryBalance.toNat + economy.liquidityReserve.toNat =
      economy.totalSupply.toNat)
    (shares : economy.liquidityFeePercent.toNat + economy.treasuryFeePercent.toNat ≤ 100)
    (reached : ((Process.start (Node.new { chain := [genesis], economy } state consensus) validatorIdentity).run file
      history).1.node = node)
    (memory : node.blockchain.transactions.length + maxNormalTransactionsPerBlock < 2 ^ 64)
    (freeBlocks : CollisionFree (hashedData (genesis :: node.blockchain.chain)))
    (freeMessages : CollisionFree (node.messages wallet))
    (pending : ∃ transaction ∈ node.mempool.transactions, Mempool.Applies node.state transaction)
    (last : node.blockchain.chain.getLast? = some tip)
    (selected : (node.consensus.selectValidatorFromHash tip.hash).map Validator.address = some wallet.address)
    (later : tip.timestamp < timestamp) (now : SystemTime)
    (future : Blockchain.validateFutureTimestamp now timestamp = .ok ()) (chainFile : ChainFile) :
    (∃ block node' file', node.produceBlock now (.ok ()) chainFile timestamp wallet = (.ok block, node', file')) ↔
      node.blockchain.economy.totalSupply.toNat + node.blockchain.economy.blockReward.toNat ≤
        node.blockchain.economy.maxSupply.toNat := by
  have at0 := Blockchain.isValid_singleton.mp valid
  have index : genesis.index = 0 := at0.index
  let origin : Node := Node.new { chain := [genesis], economy } state consensus
  have invariant : LedgerInvariant origin fun ledger => ∃ start genesis added, Healthy start genesis added ledger :=
    Healthy.invariant money shares
  have keeps := Process.run_keeps invariant ⟨_, genesis, [], .start rfl at0.hash money shares⟩ rfl validatorIdentity
    file history
  have head : ((Process.start origin validatorIdentity).run file history).1.node.blockchain.chain.head?.map
      Block.hash = origin.blockchain.chain.head?.map Block.hash := Process.run_head rfl validatorIdentity file history
  rw [reached] at head
  obtain ⟨⟨start, first, added, healthy⟩, _, admitted, _, _⟩ := keeps
  rw [reached] at healthy admitted
  have empty : first.transactions = [] := by
    have chain : node.blockchain.chain = first :: added := healthy.chain
    rw [chain] at head
    have same : first.hash = genesis.hash := by simpa [origin, Node.new] using head
    rw [healthy.hash, at0.hash] at same
    have data : first.hashData = genesis.hashData :=
      sha256Hex_inj freeBlocks ⟨first, by simp [chain], rfl⟩ ⟨genesis, by simp, rfl⟩ same
    have short := hashData_genesis_length index at0.sizes
    have whole := Block.hashData_inj (Block.encodable_of_length (by rw [data]; exact short))
      (Block.encodable_of_length short) data
    rw [whole]
    exact (validateBlockFieldSizes_genesis index at0.sizes).2
  rw [Node.produceBlock_ok_iff admitted]
  exact healthy.prepareBlock_iff empty admitted memory freeMessages last later future selected pending

end Runs

end

namespace Fixture

/-- The whole supply in the account of the sender. -/
def stateIn (economy : Economy) : State :=
  State.new.createAccount (hexEncode senderAddress.val) economy.totalSupply

/-- A node with another economy once it has admitted the first payment. -/
def pendingIn (economy : Economy) : Node :=
  ((Process.start (Node.new { chain := [genesis], economy } (stateIn economy) consensus) none).run .missing
    [(env, .insertTransaction transfer)]).1.node

def cappedEconomy : Economy :=
  { Economy.new with totalSupply := maxSupplyMicroKbn }

def greedyEconomy : Economy :=
  { Economy.new with totalSupply := maxSupplyMicroKbn - blockRewardMicroKbn, liquidityFeePercent := 200 }

end Fixture

open Fixture in
/-- Two healthy nodes that cannot go on: the supply of one has reached the cap,
and the shares of the other exceed the fee. -/
theorem Fixture.full_supply_halts :
    (∀ economy ∈ [cappedEconomy, greedyEconomy],
      Blockchain.isValid { chain := [genesis], economy } = true ∧
      (stateIn economy).totalBalance + (stateIn economy).treasuryBalance.toNat + economy.liquidityReserve.toNat =
        economy.totalSupply.toNat ∧
      economy.totalSupply ≤ economy.maxSupply ∧
      (pendingIn economy).mempool.transactions = [transfer] ∧
      ((pendingIn economy).state.applyTransaction transfer).1 = .ok () ∧
      (pendingIn economy).blockchain.chain.getLast? = some genesis ∧
      ((pendingIn economy).consensus.selectValidatorFromHash genesis.hash).map Validator.address =
        some (Wallet.fromSigningKey validatorSigningKey).address ∧
      Blockchain.validateFutureTimestamp now (genesisTimestamp + 1) = .ok ()) ∧
    ((pendingIn cappedEconomy).produceBlock now (.ok ()) .missing (genesisTimestamp + 1)
      (Wallet.fromSigningKey validatorSigningKey)).1 = .error (.error "Maximum supply exceeded") ∧
    ((pendingIn greedyEconomy).produceBlock now (.ok ()) .missing (genesisTimestamp + 1)
      (Wallet.fromSigningKey validatorSigningKey)).1 =
        .error (.panic "Liquidity Reserve and treasury shares exceed the total fee") := by
  refine ⟨?_, by decide +kernel, by decide +kernel⟩
  simp only [List.mem_cons, List.not_mem_nil, or_false, forall_eq_or_imp, forall_eq]
  decide +kernel

open Fixture in
theorem Fixture.table_separates : CollisionFree {transfer.message, reward.message} := by
  have apart : Crypto.sha256 transfer.message ≠ Crypto.sha256 reward.message := by decide +kernel
  rintro a (rfl | rfl) b (rfl | rfl) same
  · rfl
  · exact absurd same apart
  · exact absurd same.symm apart
  · rfl

open Fixture in
/-- The pending payment of the example node makes a block. -/
theorem Fixture.pending_is_produced : ∃ block node' file',
    pending.produceBlock now (.ok ()) .missing (genesisTimestamp + 1) (Wallet.fromSigningKey validatorSigningKey) =
      (.ok block, node', file') := by
  have chain : pending.blockchain.chain = [genesis] := by decide +kernel
  have pool : pending.mempool.transactions = [transfer] := by decide +kernel
  have coinbase : Transaction.newCoinbase (Wallet.fromSigningKey validatorSigningKey).address
      pending.blockchain.economy.blockReward 1 = reward := by decide +kernel
  have freeBlocks : CollisionFree (hashedData (genesis :: pending.blockchain.chain)) := by
    have only : ∀ b ∈ genesis :: pending.blockchain.chain, b = genesis := by
      rw [chain]
      simp only [List.mem_cons, List.not_mem_nil, or_false, or_self, imp_self, implies_true]
    exact .of_subsingleton (hashedData_subsingleton only)
  have freeMessages : CollisionFree (pending.messages (Wallet.fromSigningKey validatorSigningKey)) := by
    refine table_separates.mono ?_
    rintro data ⟨transaction, member, rfl⟩
    have all : pending.blockchain.transactions ++ pending.mempool.transactions = [transfer] := by decide +kernel
    rw [all, chain] at member
    rcases List.mem_append.mp member with payment | last
    · exact Or.inl (congrArg _ (List.mem_singleton.mp payment))
    · exact Or.inr (congrArg _ ((List.mem_singleton.mp last).trans coinbase))
  have tip : pending.blockchain.chain.getLast? = some genesis := by rw [chain]; rfl
  have applies : Mempool.Applies pending.state transfer := .of_applyTransaction (by decide +kernel)
  have reached : ((Process.start (Node.new { chain := [genesis], economy := blockchain.economy } state consensus)
      none).run .missing [(env, .insertTransaction transfer)]).1.node = pending := rfl
  have iff : (∃ block node' file', pending.produceBlock now (.ok ()) .missing (genesisTimestamp + 1)
      (Wallet.fromSigningKey validatorSigningKey) = (.ok block, node', file')) ↔
        pending.blockchain.economy.totalSupply.toNat + pending.blockchain.economy.blockReward.toNat ≤
          pending.blockchain.economy.maxSupply.toNat :=
    Process.run_produces_iff state consensus none .missing [(env, .insertTransaction transfer)]
      (by decide +kernel) (by decide +kernel) (by decide +kernel) reached (by decide +kernel) freeBlocks freeMessages
      ⟨transfer, by simp [pool], applies⟩ tip (by decide +kernel) (by decide +kernel) now (by decide +kernel) .missing
  exact iff.mpr (by decide +kernel)

end Kybernetes
