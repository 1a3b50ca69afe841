import Kybernetes.Conservation
import Kybernetes.LedgerInvariant
import Kybernetes.TransactionHistory

namespace Kybernetes

open Bootstrap

theorem noncesFrom_nodup (first : UInt64) {count : Nat} (bound : count ≤ 2 ^ 64) :
    (noncesFrom first count).Nodup := by
  refine List.Nodup.map_on (fun i memberI j memberJ same => ?_) List.nodup_range
  have below := List.mem_range.mp memberI
  have below' := List.mem_range.mp memberJ
  exact (ofNat_inj_of_lt (below.trans_le bound) (below'.trans_le bound)).mp ((UInt64.add_right_inj first).mp same)

/-- Payments that differ in the nonce wherever they have one sender differ in
the message. -/
theorem messages_nodup {transactions : List Transaction}
    (encodable : ∀ transaction ∈ transactions, transaction.Encodable)
    (sequence : ∀ a, ((sentBy a transactions).map Transaction.nonce).Nodup) :
    (transactions.map Transaction.message).Nodup := by
  rw [List.Nodup, List.pairwise_map, List.pairwise_iff_getElem]
  intro i j boundI boundJ below same
  have ordered := sequence transactions[i].from
  rw [List.Nodup, List.pairwise_map, sentBy, List.pairwise_filter, List.pairwise_iff_getElem] at ordered
  have whole := Transaction.message_inj (encodable _ (List.getElem_mem boundI))
    (encodable _ (List.getElem_mem boundJ)) same
  have sender := congrArg Transaction.from whole
  have nonce := congrArg Transaction.nonce whole
  exact ordered i j boundI boundJ below (beq_self_eq_true _) (beq_iff_eq.mpr sender.symm) nonce

section

variable [Crypto]

/-- What a chain keeps of a block that was added as one of the first `count`. -/
structure Block.Added (count : Nat) (block : Block) : Prop where
  hash : block.hash = block.calculateHash
  validator_fixed : isFixedHex block.validator addressHexLength = true
  place : ∃ position ≤ count, block.index = UInt64.ofNat position
  transactions : ∃ normals reward, (∀ transaction ∈ normals, transaction.coinbase = false) ∧
    block.transactions = normals ++ [Transaction.newCoinbase block.validator reward block.index]

/-- A ledger that goes back to a single block and whose money is the supply. -/
structure Healthy (start : Ledger) (genesis : Block) (added : List Block) (ledger : Ledger) : Prop where
  root : start.1.chain = [genesis]
  hash : genesis.hash = genesis.calculateHash
  records : Records start added ledger
  policy : ledger.1.economy.policy = start.1.economy.policy
  blocks : ∀ block ∈ added, block.Added added.length
  money : ledger.2.totalBalance + ledger.2.treasuryBalance.toNat + ledger.1.economy.liquidityReserve.toNat =
    ledger.1.economy.totalSupply.toNat
  shares : start.1.economy.liquidityFeePercent.toNat + start.1.economy.treasuryFeePercent.toNat ≤ 100

theorem Healthy.start {start : Ledger} {genesis : Block} (root : start.1.chain = [genesis])
    (hash : genesis.hash = genesis.calculateHash)
    (money : start.2.totalBalance + start.2.treasuryBalance.toNat + start.1.economy.liquidityReserve.toNat =
      start.1.economy.totalSupply.toNat)
    (shares : start.1.economy.liquidityFeePercent.toNat + start.1.economy.treasuryFeePercent.toNat ≤ 100) :
    Healthy start genesis [] start :=
  ⟨root, hash, .start start, rfl, by simp, money, shares⟩

variable {start ledger after : Ledger} {genesis next : Block} {added : List Block} {normals : List Transaction}

theorem Healthy.chain (healthy : Healthy start genesis added ledger) : ledger.1.chain = genesis :: added := by
  rw [healthy.records.chain, healthy.root]
  rfl

theorem Healthy.block {consensus : Consensus} (healthy : Healthy start genesis added ledger)
    (admissible : Admissible consensus ledger.1 next normals) (settled : ledger.settle next normals = .ok after) :
    Healthy start genesis (added ++ [next]) after := by
  have step := admissible.settles settled
  obtain ⟨supply, liquidity, same⟩ := step.policy
  refine ⟨healthy.root, healthy.hash, healthy.records.block healthy.policy admissible settled, ?_,
    fun other member => ?_, ?_, healthy.shares⟩
  · rw [same, Economy.policy_with, healthy.policy]
  · rw [List.length_append, List.length_singleton]
    rcases List.mem_append.mp member with old | new
    · obtain ⟨hash, fixed, ⟨position, below, index⟩, transactions⟩ := healthy.blocks other old
      exact ⟨hash, fixed, ⟨position, by omega, index⟩, transactions⟩
    · rw [List.mem_singleton.mp new]
      have place : next.index = UInt64.ofNat (added.length + 1) := by
        rw [admissible.index, healthy.chain, List.length_cons]
      exact ⟨admissible.hash, admissible.validator_fixed, ⟨_, Nat.le_refl _, place⟩, normals, _,
        fun transaction member => (admissible.genuine transaction member).normal, admissible.transactions⟩
  · have total := step.total
    have minted := step.supply
    have money := healthy.money
    omega

theorem Healthy.hash_fixed (healthy : Healthy start genesis added ledger) {block : Block}
    (member : block ∈ ledger.1.chain) : isFixedHex block.hash hashHexLength = true := by
  rw [healthy.chain] at member
  have hash : block.hash = block.calculateHash := by
    rcases List.mem_cons.mp member with rfl | later
    · exact healthy.hash
    · exact (healthy.blocks block later).hash
  rw [hash]
  exact isFixedHex_sha256Hex _

/-- A transaction behind the first block is a recorded payment or the reward of
its block. -/
theorem Healthy.transaction_cases (healthy : Healthy start genesis added ledger) (empty : genesis.transactions = [])
    {transaction : Transaction} (member : transaction ∈ ledger.1.transactions) :
    transaction ∈ normalsOf added ∨ ∃ validator reward, ∃ position ≤ added.length,
      isFixedHex validator addressHexLength = true ∧
      transaction = Transaction.newCoinbase validator reward (UInt64.ofNat position) := by
  rw [Blockchain.transactions, healthy.chain, List.flatMap_cons, empty, List.nil_append] at member
  obtain ⟨block, memberBlock, inside⟩ := List.mem_flatMap.mp member
  obtain ⟨_, fixed, ⟨position, below, index⟩, normals, reward, normal, shape⟩ := healthy.blocks block memberBlock
  rw [shape, List.mem_append, List.mem_singleton] at inside
  rcases inside with payment | rfl
  · exact Or.inl (List.mem_filter.mpr ⟨member, by simp [normal transaction payment]⟩)
  · exact Or.inr ⟨block.validator, reward, position, below, fixed, by rw [index]⟩

/-- Each added block carries a reward at least. -/
theorem Healthy.length_le (healthy : Healthy start genesis added ledger) :
    added.length ≤ ledger.1.transactions.length := by
  have each : ∀ {blocks : List Block}, (∀ block ∈ blocks, block.Added added.length) →
      blocks.length ≤ (blocks.flatMap Block.transactions).length := by
    intro blocks all
    induction blocks with
    | nil => exact Nat.zero_le _
    | cons block rest ih =>
      obtain ⟨_, _, _, normals, reward, _, shape⟩ := all block (by simp)
      have tail := ih fun other member => all other (by simp [member])
      rw [List.flatMap_cons, shape]
      simp only [List.length_cons, List.length_append, List.length_nil]
      omega
  have whole := each healthy.blocks
  rw [Blockchain.transactions, healthy.chain, List.flatMap_cons, List.length_append]
  omega

theorem Healthy.normals_length_le (healthy : Healthy start genesis added ledger) :
    (normalsOf added).length ≤ ledger.1.transactions.length := by
  have filtered : (normalsOf added).length ≤ (added.flatMap Block.transactions).length := List.length_filter_le _ _
  rw [Blockchain.transactions, healthy.chain, List.flatMap_cons, List.length_append]
  omega

/-- The messages of some transactions, which their ids are digests of. -/
def messagesOf (transactions : List Transaction) : Set Bytes :=
  {data | ∃ transaction ∈ transactions, transaction.message = data}

theorem ids_inj {transactions : List Transaction} (free : CollisionFree (messagesOf transactions))
    {left right : Transaction} (memberLeft : left ∈ transactions) (memberRight : right ∈ transactions)
    (leftId : left.id = left.calculateId) (rightId : right.id = right.calculateId) (same : left.id = right.id) :
    left.message = right.message := by
  rw [leftId, rightId] at same
  exact sha256Hex_inj free ⟨left, memberLeft, rfl⟩ ⟨right, memberRight, rfl⟩ same

theorem payment_message_ne {economy : Economy} {transaction : Transaction} {validator : Text}
    (genuine : transaction.Genuine economy) (fixed : isFixedHex validator addressHexLength = true)
    (reward index : UInt64) : transaction.message ≠ (Transaction.newCoinbase validator reward index).message := by
  intro same
  have whole := Transaction.message_inj genuine.encodable.1
    (Transaction.newCoinbase_encodable (isFixedHex_length fixed).le).1 same
  have kind : transaction.coinbase = true := congrArg Transaction.coinbase whole
  rw [genuine.normal] at kind
  cases kind

/-- The reward marker is the index of the block. -/
theorem reward_message_inj {validator validator' : Text} {reward reward' index index' : UInt64}
    (fixed : isFixedHex validator addressHexLength = true) (fixed' : isFixedHex validator' addressHexLength = true)
    (same : (Transaction.newCoinbase validator reward index).message =
      (Transaction.newCoinbase validator' reward' index').message) : index = index' := by
  have whole := Transaction.message_inj (Transaction.newCoinbase_encodable (isFixedHex_length fixed).le).1
    (Transaction.newCoinbase_encodable (isFixedHex_length fixed').le).1 same
  have marker : BitVec.ofNat 128 index.toNat = BitVec.ofNat 128 index'.toNat := congrArg Transaction.rewardMarker whole
  have value := congrArg BitVec.toNat marker
  have bound := index.toNat_lt
  have bound' := index'.toNat_lt
  rw [BitVec.toNat_ofNat, BitVec.toNat_ofNat, Nat.mod_eq_of_lt (by omega), Nat.mod_eq_of_lt (by omega)] at value
  exact UInt64.toNat_inj.mp value

/-- A batch that applies to a healthy ledger makes a block whose ids are new. -/
theorem Healthy.ids_fresh (healthy : Healthy start genesis added ledger) (empty : genesis.transactions = [])
    {chosen : List Transaction} {paid : State} {validator : Text} {reward : UInt64}
    (some : chosen ≠ []) (memory : ledger.1.transactions.length + chosen.length < 2 ^ 64)
    (genuine : ∀ transaction ∈ chosen, transaction.Genuine ledger.1.economy)
    (batch : ledger.2.applyTransactionsAtomically chosen = .ok paid)
    (fixed : isFixedHex validator addressHexLength = true)
    (free : CollisionFree (messagesOf (ledger.1.transactions ++ chosen ++
      [Transaction.newCoinbase validator reward (UInt64.ofNat ledger.1.chain.length)]))) :
    let block := chosen ++ [Transaction.newCoinbase validator reward (UInt64.ofNat ledger.1.chain.length)]
    (block.map Transaction.id).Nodup ∧
      ∀ transaction ∈ block, transaction.id ∉ ledger.1.transactions.map Transaction.id := by
  intro block
  have one := List.length_pos_of_ne_nil some
  have few := healthy.length_le
  have fewer := healthy.normals_length_le
  have pays := State.applyTransactionsAtomically_pays (fun t member => (genuine t member).normal) batch
  have height : ledger.1.chain.length = added.length + 1 := by rw [healthy.chain, List.length_cons]
  have payments : ∀ transaction ∈ normalsOf added ++ chosen, transaction.Genuine start.1.economy := by
    intro transaction member
    rcases List.mem_append.mp member with old | new
    · exact healthy.records.genuine transaction old
    · exact (genuine transaction new).of_policy healthy.policy.symm
  have distinct : ((normalsOf added ++ chosen).map Transaction.message).Nodup := by
    refine messages_nodup (fun transaction member => (payments transaction member).encodable.1) fun a => ?_
    rw [sentBy_append, List.map_append, healthy.records.sequence a, pays.sequence a, healthy.records.nonces a,
      ← noncesFrom_add]
    refine noncesFrom_nodup _ ?_
    have old : (sentBy a (normalsOf added)).length ≤ (normalsOf added).length := List.length_filter_le _ _
    have new : (sentBy a chosen).length ≤ chosen.length := List.length_filter_le _ _
    omega
  rw [List.map_append, List.nodup_append] at distinct
  obtain ⟨_, chosenDistinct, apart⟩ := distinct
  have same : ∀ {left right : Transaction}, left ∈ ledger.1.transactions ++ block →
      right ∈ ledger.1.transactions ++ block → left.id = left.calculateId → right.id = right.calculateId →
      left.id = right.id → left.message = right.message := by
    intro left right memberLeft memberRight
    rw [← List.append_assoc] at memberLeft memberRight
    exact ids_inj free memberLeft memberRight
  have inside : ∀ {transaction : Transaction}, transaction ∈ chosen →
      transaction ∈ ledger.1.transactions ++ block := fun member =>
    List.mem_append_right _ (List.mem_append_left _ member)
  have last : Transaction.newCoinbase validator reward (UInt64.ofNat ledger.1.chain.length) ∈
      ledger.1.transactions ++ block := by simp [block]
  constructor
  · rw [List.map_append, List.nodup_append]
    refine ⟨?_, List.nodup_singleton _, ?_⟩
    · rw [List.Nodup, List.pairwise_map] at chosenDistinct ⊢
      refine chosenDistinct.imp_of_mem fun memberLeft memberRight differ equal => differ ?_
      exact same (inside memberLeft) (inside memberRight) (genuine _ memberLeft).id_eq (genuine _ memberRight).id_eq
        equal
    · rintro id memberLeft _ memberRight rfl
      obtain ⟨payment, member, rfl⟩ := List.mem_map.mp memberLeft
      rw [List.map_singleton, List.mem_singleton] at memberRight
      exact payment_message_ne (genuine _ member) fixed _ _
        (same (inside member) last (genuine _ member).id_eq rfl memberRight)
  · intro transaction member used
    obtain ⟨known, memberKnown, equal⟩ := List.mem_map.mp used
    have before : known ∈ ledger.1.transactions ++ block := List.mem_append_left _ memberKnown
    rcases healthy.transaction_cases empty memberKnown with payment | ⟨_, _, position, below, fixed', rfl⟩
    · have recorded := healthy.records.genuine known payment
      rcases List.mem_append.mp member with new | reward
      · refine apart _ (List.mem_map_of_mem payment) _ (List.mem_map_of_mem new) ?_
        exact same before (inside new) recorded.id_eq (genuine _ new).id_eq equal
      · cases List.mem_singleton.mp reward
        exact payment_message_ne recorded fixed _ _ (same before last recorded.id_eq rfl equal)
    · rcases List.mem_append.mp member with new | reward
      · exact payment_message_ne (genuine _ new) fixed' _ _
          (same (inside new) before (genuine _ new).id_eq rfl equal.symm)
      · cases List.mem_singleton.mp reward
        have index := reward_message_inj fixed' fixed (same before last rfl rfl equal)
        have low : position < 2 ^ 64 := by omega
        have high : ledger.1.chain.length < 2 ^ 64 := by omega
        have same := (ofNat_inj_of_lt low high).mp index
        omega

end

end Kybernetes
