import Kybernetes.Validation

namespace Kybernetes

variable [Crypto]

/-- What a block has to be to extend a chain, apart from the clock and from
the signature of its validator. -/
structure Admissible (consensus : Consensus) (blockchain : Blockchain) (block : Block)
    (normals : List Transaction) : Prop where
  transactions : block.transactions = normals ++
    [Transaction.newCoinbase block.validator blockchain.economy.blockReward block.index]
  genuine : ∀ transaction ∈ normals, transaction.Genuine blockchain.economy
  nonempty : normals ≠ []
  count : normals.length ≤ maxNormalTransactionsPerBlock
  index : block.index = UInt64.ofNat blockchain.chain.length
  index_ne : block.index ≠ 0
  follows : ∃ tip, blockchain.chain.getLast? = some tip ∧ block.previousHash = tip.hash ∧
    tip.timestamp < block.timestamp
  hash : block.hash = block.calculateHash
  previousHash_fixed : isFixedHex block.previousHash hashHexLength = true
  validator_fixed : isFixedHex block.validator addressHexLength = true
  publicKey_fixed : isFixedHex block.validatorPublicKey publicKeyHexLength = true
  signature_fixed : ∃ signature, block.validatorSignature = some signature ∧
    isFixedHex signature signatureHexLength = true
  selected : (consensus.selectValidatorFromHash block.previousHash).map Validator.address = some block.validator
  distinct : (block.transactions.map Transaction.id).Nodup
  fresh : ∀ transaction ∈ block.transactions, transaction.id ∉ blockchain.transactions.map Transaction.id

/-- The block carries a signature of its hash under a key of its validator. -/
structure Block.Attested (block : Block) : Prop where
  derived : Wallet.addressFromPublicKey block.validatorPublicKey = some block.validator
  signed : ∃ signature, block.validatorSignature = some signature ∧
    Wallet.verify block.validatorPublicKey block.hash signature = true

namespace Blockchain

omit [Crypto] in
theorem insertIds_eq_ok {seen : List Text} {transactions : List Transaction} :
    insertIds seen transactions = .ok () ↔
      (transactions.map Transaction.id).Nodup ∧ ∀ transaction ∈ transactions, transaction.id ∉ seen := by
  induction transactions generalizing seen with
  | nil => simp [insertIds]
  | cons transaction transactions ih =>
    simp only [insertIds, bind_eq_ok, rejectIf_eq_ok, exists_const, ih, List.map_cons, List.nodup_cons,
      List.mem_cons, forall_eq_or_imp, List.mem_map, not_or, not_exists, not_and]
    constructor
    · rintro ⟨new, distinct, fresh⟩
      exact ⟨⟨fun other member => (fresh other member).1, distinct⟩, new, fun t member => (fresh t member).2⟩
    · rintro ⟨⟨others, distinct⟩, new, fresh⟩
      exact ⟨new, distinct, fun t member => ⟨others t member, fresh t member⟩⟩

omit [Crypto] in
theorem validateTransactionIdUniqueness_eq_ok {blockchain : Blockchain} {block : Block} :
    blockchain.validateTransactionIdUniqueness block = .ok () ↔
      (block.transactions.map Transaction.id).Nodup ∧
      ∀ transaction ∈ block.transactions, transaction.id ∉ blockchain.transactions.map Transaction.id :=
  insertIds_eq_ok

omit [Crypto] in
theorem validateBlockFieldSizes_eq_ok {block : Block} (index_ne : block.index ≠ 0) :
    validateBlockFieldSizes block = .ok () ↔
      block.transactions.length ≤ maxTotalTransactionsPerBlock ∧
      isFixedHex block.hash hashHexLength = true ∧
      (∃ transaction ∈ block.transactions, ¬ transaction.coinbase = true) ∧
      isFixedHex block.previousHash hashHexLength = true ∧
      isFixedHex block.validator addressHexLength = true ∧
      isFixedHex block.validatorPublicKey publicKeyHexLength = true ∧
      (∃ signature, block.validatorSignature = some signature ∧
        isFixedHex signature signatureHexLength = true) ∧
      ∀ transaction ∈ block.transactions, validateTransactionFieldSizes transaction = .ok () := by
  simp only [validateBlockFieldSizes, bind_eq_ok, rejectIf_eq_ok, okOr_eq_ok, if_neg index_ne, exists_const,
    forM_eq_ok, not_lt, not_not, List.any_eq_true, decide_eq_true_eq]
  constructor
  · rintro ⟨count, hash, normal, previous, validator, key, signature, signed, fixed, sizes⟩
    exact ⟨count, hash, normal, previous, validator, key, ⟨signature, signed, fixed⟩, sizes⟩
  · rintro ⟨count, hash, normal, previous, validator, key, ⟨signature, signed, fixed⟩, sizes⟩
    exact ⟨count, hash, normal, previous, validator, key, signature, signed, fixed, sizes⟩

omit [Crypto] in
/-- A block of index zero passes only without transactions. -/
theorem validateBlockFieldSizes_index_ne {block : Block} (sizes : validateBlockFieldSizes block = .ok ())
    (nonempty : block.transactions ≠ []) : block.index ≠ 0 := by
  intro zero
  simp only [validateBlockFieldSizes, bind_eq_ok, rejectIf_eq_ok, if_pos zero, exists_const, not_or, ne_eq,
    not_not] at sizes
  exact nonempty sizes.2.2.2.2.2.2

end Blockchain

namespace Consensus

omit [Crypto] in
theorem selectFrom_mem {target current : UInt64} {validators : List Validator} {validator : Validator}
    (selected : selectFrom target current validators = some validator) : validator ∈ validators := by
  induction validators generalizing current with
  | nil => simp [selectFrom] at selected
  | cons first rest ih =>
    unfold selectFrom at selected
    split at selected
    · cases selected
      simp
    · exact List.mem_cons_of_mem _ (ih selected)

/-- A selected validator is a registered one. -/
theorem selectValidatorFromHash_allowed {consensus : Consensus} {previousHash : Text} {validator : Validator}
    (selected : consensus.selectValidatorFromHash previousHash = some validator) :
    consensus.isValidatorAllowed validator.address = true := by
  unfold selectValidatorFromHash selectValidator at selected
  split at selected
  · simp at selected
  · exact List.any_eq_true.mpr ⟨validator, selectFrom_mem selected, beq_self_eq_true _⟩

end Consensus

/-- Every transaction of an admissible block has the sizes the code asks for. -/
theorem Admissible.sizes {consensus : Consensus} {blockchain : Blockchain} {block : Block}
    {normals : List Transaction} (admissible : Admissible consensus blockchain block normals) :
    ∀ transaction ∈ block.transactions, Blockchain.validateTransactionFieldSizes transaction = .ok () := by
  intro transaction member
  rw [admissible.transactions, List.mem_append, List.mem_singleton] at member
  rcases member with member | rfl
  · have genuine := admissible.genuine transaction member
    obtain ⟨signature, signed, fixed, _⟩ := genuine.signed
    exact (validateTransactionFieldSizes_normal genuine.normal).mpr ⟨genuine.id_fixed, genuine.from_fixed,
      genuine.to_fixed, genuine.publicKey_fixed, signature, signed, fixed⟩
  · exact (validateTransactionFieldSizes_coinbase rfl).mpr
      ⟨isFixedHex_sha256Hex _, rfl, rfl, admissible.validator_fixed, rfl⟩

theorem Admissible.blockSizes {consensus : Consensus} {blockchain : Blockchain} {block : Block}
    {normals : List Transaction} (admissible : Admissible consensus blockchain block normals) :
    Blockchain.validateBlockFieldSizes block = .ok () := by
  refine (Blockchain.validateBlockFieldSizes_eq_ok admissible.index_ne).mpr ⟨?_, ?_, ?_,
    admissible.previousHash_fixed, admissible.validator_fixed, admissible.publicKey_fixed,
    admissible.signature_fixed, admissible.sizes⟩
  · have count := admissible.count
    rw [admissible.transactions, List.length_append, List.length_singleton]
    unfold maxTotalTransactionsPerBlock
    omega
  · rw [admissible.hash]
    exact isFixedHex_sha256Hex _
  · obtain ⟨transaction, member⟩ := List.exists_mem_of_ne_nil _ admissible.nonempty
    exact ⟨transaction, by simp [admissible.transactions, member], by simp [(admissible.genuine _ member).normal]⟩

/-- The chain side of acceptance, without the ledger. -/
theorem Blockchain.addReceivedBlock_eq_ok {blockchain extended : Blockchain} {now : SystemTime} {block : Block} :
    blockchain.addReceivedBlock now block = .ok extended ↔
      Blockchain.validateBlockFieldSizes block = .ok () ∧
      blockchain.validateTransactionIdUniqueness block = .ok () ∧
      (∃ tip, blockchain.chain.getLast? = some tip ∧ block.previousHash = tip.hash ∧
        tip.timestamp < block.timestamp) ∧
      Blockchain.validateFutureTimestamp now block.timestamp = .ok () ∧
      block.hash = block.calculateHash ∧ block.index = UInt64.ofNat blockchain.chain.length ∧
      extended = { blockchain with chain := blockchain.chain ++ [block] } := by
  simp only [Blockchain.addReceivedBlock, bind_eq_ok, rejectIf_eq_ok, okOr_eq_ok, pure_eq_ok, exists_const,
    ne_eq, not_not, UInt64.not_le]
  constructor
  · rintro ⟨_, sizes, _, unique, tip, last, link, later, _, future, hash, index, rfl⟩
    exact ⟨sizes, unique, ⟨tip, last, link, later⟩, future, hash, index, rfl⟩
  · rintro ⟨sizes, unique, ⟨tip, last, link, later⟩, future, hash, index, rfl⟩
    exact ⟨(), sizes, (), unique, tip, last, link, later, (), future, hash, index, rfl⟩

/-- Block validation accepts exactly the admissible, attested blocks that are
not too far in the future and that settle, and leaves the settled ledger. -/
theorem Node.validateAndApplyBlock_eq_ok {node : Node} {now : SystemTime} {block : Block}
    {blockchain : Blockchain} {state : State} {after : Ledger} :
    node.validateAndApplyBlock now block blockchain state = .ok after ↔
      block.Attested ∧ Blockchain.validateFutureTimestamp now block.timestamp = .ok () ∧
      ∃ normals, Admissible node.consensus blockchain block normals ∧
        Ledger.settle (blockchain, state) block normals = .ok after := by
  simp only [validateAndApplyBlock, bind_eq_ok, rejectIf_eq_ok, okOr_eq_ok, pure_eq_ok, exists_const, forM_eq_ok,
    Blockchain.addReceivedBlock_eq_ok, Block.isHashValid, not_or, not_not, not_lt, ne_eq, beq_iff_eq]
  constructor
  · rintro ⟨count, ⟨previous, _⟩, validator, key, _, _, _, sizes, _, extended,
      ⟨blockSizes, unique, follows, future, hash, index, rfl⟩, selected, selection, producer, _, derived, rfl, _,
      signature, signed, verified, nonempty, replay, replayed, coinbase, found, ⟨credited, economy⟩, credit, minted,
      mint, rewarded, reward, rfl⟩
    have index_ne := Blockchain.validateBlockFieldSizes_index_ne blockSizes nonempty
    have format := (Blockchain.validateBlockFieldSizes_eq_ok index_ne).mp blockSizes
    obtain ⟨distinct, fresh⟩ := Blockchain.validateTransactionIdUniqueness_eq_ok.mp unique
    obtain ⟨normals, shape, rfl, genuine, applied, charged, _⟩ :=
      (replayTransactions_eq_ok 0 { state, totals := FeeTotals.zero, coinbase := none } _ rfl
        (by simp)).mp ⟨replayed, found⟩
    refine ⟨⟨derived, signature, signed, verified⟩, future, normals, ?_, ?_⟩
    · refine ⟨shape, genuine, ?_, ?_, index, index_ne, follows, hash, previous, validator, key,
        format.2.2.2.2.2.2.1, ?_, distinct, fresh⟩
      · rintro rfl
        obtain ⟨transaction, member, normal⟩ := format.2.2.1
        simp only [shape, List.nil_append, List.mem_singleton] at member
        rw [member] at normal
        exact normal rfl
      · have bound := format.1
        rw [shape, List.length_append, List.length_singleton] at bound
        unfold maxTotalTransactionsPerBlock at bound
        omega
      · rw [selection, producer]
        rfl
    · simp only [Ledger.settle, bind_eq_ok, pure_eq_ok]
      exact ⟨_, applied, _, charged, (credited, economy), credit, minted, mint, rewarded, reward, rfl⟩
  · rintro ⟨⟨derived, signature, signed, verified⟩, future, normals, admissible, settled⟩
    simp only [Ledger.settle, bind_eq_ok, pure_eq_ok] at settled
    obtain ⟨paid, applied, totals, charged, ⟨credited, economy⟩, credit, minted, mint, rewarded, reward, rfl⟩ :=
      settled
    obtain ⟨fixedSignature, signedFixed, fixed⟩ := admissible.signature_fixed
    obtain ⟨selected, selection, producer⟩ := Option.map_eq_some_iff.mp admissible.selected
    have format := (Blockchain.validateBlockFieldSizes_eq_ok admissible.index_ne).mp admissible.blockSizes
    have shape := admissible.transactions
    have nonempty : block.transactions ≠ [] := by simp [shape]
    obtain ⟨replayed, _⟩ := (replayTransactions_eq_ok 0 { state, totals := FeeTotals.zero, coinbase := none }
      { state := paid, totals, coinbase := some _ } rfl (by simp)).mpr
      ⟨normals, shape, rfl, admissible.genuine, applied, charged, rfl⟩
    exact ⟨format.1, ⟨admissible.previousHash_fixed, format.2.1⟩, admissible.validator_fixed,
      admissible.publicKey_fixed, fixedSignature, signedFixed, fixed, admissible.sizes, admissible.hash, _,
      ⟨admissible.blockSizes,
        Blockchain.validateTransactionIdUniqueness_eq_ok.mpr ⟨admissible.distinct, admissible.fresh⟩,
        admissible.follows, future, admissible.hash, admissible.index, rfl⟩,
      selected, selection, producer.symm, _, derived, rfl,
      producer ▸ Consensus.selectValidatorFromHash_allowed selection, signature, signed, verified, nonempty, _,
      replayed, _, rfl, (credited, economy), credit, minted, mint, rewarded, reward, rfl⟩

end Kybernetes
