import Kybernetes.ProducerAgreement

namespace Kybernetes

open Bootstrap
open Process (canonicalCandidate)

section

variable [Crypto]

namespace Blockchain

/-- The ids that `is_valid` has seen after some blocks, the newest first. -/
def seenIds (blocks : List Block) : List Text :=
  ((blocks.flatMap Block.transactions).map Transaction.id).reverse

/-- What `is_valid` asks of one block: alone, of its transactions, and against
the blocks in front of it. -/
structure ValidAt (position : Nat) (previous : Option Block) (seen : List Text) (block : Block) : Prop where
  sizes : validateBlockFieldSizes block = .ok ()
  index : block.index = UInt64.ofNat position
  ids : ∀ transaction ∈ block.transactions, transaction.id = transaction.calculateId ∧
    (transaction.coinbase = true → transaction.rewardMarker = BitVec.ofNat 128 block.index.toNat)
  distinct : (block.transactions.map Transaction.id).Nodup
  fresh : ∀ transaction ∈ block.transactions, transaction.id ∉ seen
  hash : block.hash = block.calculateHash
  linked : match previous with
    | none => block.previousHash = genesisPreviousHash
    | some previous => checkLinkage previous block = true

theorem checkTransactions_eq_some {block : Block} {seen seen' : List Text} {transactions : List Transaction} :
    checkTransactions block seen transactions = some seen' ↔
      (∀ transaction ∈ transactions, transaction.id = transaction.calculateId ∧
        (transaction.coinbase = true → transaction.rewardMarker = BitVec.ofNat 128 block.index.toNat)) ∧
      (transactions.map Transaction.id).Nodup ∧ (∀ transaction ∈ transactions, transaction.id ∉ seen) ∧
      seen' = (transactions.map Transaction.id).reverse ++ seen := by
  induction transactions generalizing seen with
  | nil =>
    simp only [checkTransactions, Option.some.injEq, List.not_mem_nil, false_implies, implies_true, List.map_nil,
      List.nodup_nil, List.reverse_nil, List.nil_append, true_and]
    exact eq_comm
  | cons transaction rest ih =>
    unfold checkTransactions
    split
    · rename_i used
      simp [used]
    split
    · rename_i used wrong
      simp [wrong]
    split
    · rename_i used wrong marker
      simp [marker.1, marker.2]
    · rename_i used right marker
      simp only [ih, List.mem_cons, forall_eq_or_imp, List.map_cons, List.nodup_cons, List.mem_map,
        List.reverse_cons, List.append_assoc, List.singleton_append, not_or, not_and, not_not] at marker right ⊢
      constructor
      · rintro ⟨ids, distinct, fresh, same⟩
        exact ⟨⟨⟨right, marker⟩, ids⟩, ⟨fun ⟨t, member, equal⟩ => (fresh t member).1 equal, distinct⟩,
          ⟨used, fun t member => (fresh t member).2⟩, same⟩
      · rintro ⟨⟨_, ids⟩, ⟨other, distinct⟩, ⟨_, fresh⟩, same⟩
        exact ⟨ids, distinct, fun t member => ⟨fun equal => other ⟨t, member, equal⟩, fresh t member⟩, same⟩

theorem isValidFrom_cons {position : Nat} {previous : Option Block} {seen : List Text} {block : Block}
    {rest : List Block} : isValidFrom position previous seen (block :: rest) = true ↔
      ValidAt position previous seen block ∧
      isValidFrom (position + 1) (some block) (seenIds [block] ++ seen) rest = true := by
  have shape : seenIds [block] ++ seen = (block.transactions.map Transaction.id).reverse ++ seen := by
    simp [seenIds]
  rw [shape]
  conv_lhs => unfold isValidFrom
  split
  · rename_i sizes
    simp only [Bool.false_eq_true, false_iff, not_and]
    exact fun valid => absurd valid.sizes sizes
  rename_i sizes
  split
  · rename_i index
    simp only [Bool.false_eq_true, false_iff, not_and]
    exact fun valid => absurd valid.index index
  rename_i index
  cases checked : checkTransactions block seen block.transactions with
  | none =>
    simp only [Bool.false_eq_true, false_iff, not_and]
    intro valid
    rw [checkTransactions_eq_some.mpr ⟨valid.ids, valid.distinct, valid.fresh, rfl⟩] at checked
    cases checked
  | some seen' =>
    obtain ⟨ids, distinct, fresh, rfl⟩ := checkTransactions_eq_some.mp checked
    simp only [not_not] at sizes index
    dsimp only
    split
    · rename_i hash
      simp only [Bool.false_eq_true, false_iff, not_and]
      exact fun valid => absurd valid.hash hash
    rename_i hash
    rw [not_not] at hash
    cases previous with
    | none =>
      dsimp only
      split
      · rename_i link
        simp only [Bool.false_eq_true, false_iff, not_and]
        exact fun valid => absurd valid.linked link
      · rename_i link
        rw [not_not] at link
        exact ⟨fun tail => ⟨⟨sizes, index, ids, distinct, fresh, hash, link⟩, tail⟩, And.right⟩
    | some previous =>
      dsimp only
      split
      · rename_i link
        simp only [Bool.false_eq_true, false_iff, not_and]
        exact fun valid => absurd valid.linked link
      · rename_i link
        rw [not_not] at link
        exact ⟨fun tail => ⟨⟨sizes, index, ids, distinct, fresh, hash, link⟩, tail⟩, And.right⟩

/-- The scan of `is_valid` from the front, read from the back. -/
theorem isValidFrom_concat (position : Nat) (previous : Option Block) (seen : List Text) (chain : List Block)
    (block : Block) : isValidFrom position previous seen (chain ++ [block]) = true ↔
      isValidFrom position previous seen chain = true ∧
      ValidAt (position + chain.length) (chain.getLast?.or previous) (seenIds chain ++ seen) block := by
  induction chain generalizing position previous seen with
  | nil =>
    rw [List.nil_append, isValidFrom_cons]
    simp [isValidFrom, seenIds]
  | cons first chain ih =>
    have last : (first :: chain).getLast?.or previous = chain.getLast?.or (some first) := by
      rw [List.getLast?_cons]
      cases chain.getLast? <;> rfl
    have ids : seenIds (first :: chain) ++ seen = seenIds chain ++ (seenIds [first] ++ seen) := by
      simp [seenIds]
    rw [List.cons_append, isValidFrom_cons, isValidFrom_cons, ih, last, ids, List.length_cons, and_assoc,
      Nat.add_right_comm, Nat.add_assoc position]

theorem isValid_concat (economy economy' : Economy) {chain : List Block} {block : Block} :
    isValid { chain := chain ++ [block], economy } = true ↔
      isValid { chain, economy := economy' } = true ∧
      ValidAt chain.length chain.getLast? (seenIds chain) block := by
  have concat := isValidFrom_concat 0 none [] chain block
  rw [Nat.zero_add, Option.or_none, List.append_nil] at concat
  exact concat

theorem isValid_singleton {genesis : Block} {economy : Economy} :
    isValid { chain := [genesis], economy } = true ↔ ValidAt 0 none [] genesis := by
  unfold isValid
  rw [isValidFrom_cons]
  simp [isValidFrom]

end Blockchain

open Blockchain

/-- What acceptance checks is enough for `is_valid`, whose own list of checks
is written separately. -/
theorem Admissible.validAt {consensus : Consensus} {blockchain : Blockchain} {block : Block}
    {normals : List Transaction} (admissible : Admissible consensus blockchain block normals)
    (attested : block.Attested) :
    ValidAt blockchain.chain.length blockchain.chain.getLast? (seenIds blockchain.chain) block := by
  obtain ⟨tip, last, link, later⟩ := admissible.follows
  refine ⟨admissible.blockSizes, admissible.index, fun transaction member => ?_, admissible.distinct,
    fun transaction member => ?_, admissible.hash, ?_⟩
  · rw [admissible.transactions, List.mem_append, List.mem_singleton] at member
    rcases member with member | rfl
    · have genuine := admissible.genuine transaction member
      exact ⟨genuine.id_eq, by simp [genuine.normal]⟩
    · exact ⟨rfl, fun _ => rfl⟩
  · simpa [seenIds, Blockchain.transactions] using admissible.fresh transaction member
  · obtain ⟨signature, signed, verified⟩ := attested.signed
    rw [last]
    dsimp only
    unfold checkLinkage
    rw [if_neg (UInt64.not_le.mpr later), if_neg (not_not.mpr link), if_neg (by simp [Block.isSigned, signed]),
      attested.derived]
    dsimp only
    rw [if_neg (not_not.mpr rfl), signed]
    exact verified

/-- Growth by attested blocks keeps a chain valid. -/
theorem Grown.isValid {consensus : Consensus} {good : Block → Prop} {start ledger : Ledger}
    (attested : ∀ block, good block → block.Attested) (grown : Grown consensus good start ledger)
    (valid : start.1.isValid = true) : ledger.1.isValid = true := by
  induction grown with
  | start => exact valid
  | @block ledger after block normals before accepted admissible settled ih =>
    have shape : after.1.chain = ledger.1.chain ++ [block] := (admissible.settles settled).chain
    have extended := (isValid_concat after.1.economy ledger.1.economy).mpr
      ⟨ih, admissible.validAt (attested block accepted)⟩
    rw [← shape] at extended
    exact extended

omit [Crypto] in
/-- A block of index zero with the right format carries neither a signature
nor transactions. -/
theorem validateBlockFieldSizes_genesis {genesis : Block} (index : genesis.index = 0)
    (sizes : validateBlockFieldSizes genesis = .ok ()) :
    genesis.validatorSignature = none ∧ genesis.transactions = [] := by
  simp only [validateBlockFieldSizes, bind_eq_ok, rejectIf_eq_ok, if_pos index, exists_const, not_or, ne_eq,
    not_not, Bool.not_eq_true, Option.isSome_eq_false_iff, Option.isNone_iff_eq_none] at sizes
  exact sizes.2.2.2.2.2

/-- A rooted first block is valid alone exactly when its format is. -/
theorem Rooted.isValid {localGenesis genesis : Block} {economy : Economy} (rooted : Rooted localGenesis genesis)
    (sizes : validateBlockFieldSizes genesis = .ok ()) :
    Blockchain.isValid { chain := [genesis], economy } = true := by
  have empty := (validateBlockFieldSizes_genesis rooted.index sizes).2
  exact isValid_singleton.mpr ⟨sizes, rooted.index, by simp [empty], by simp [empty], by simp [empty], rooted.hash,
    rooted.previousHash⟩

theorem canonicalGenesis_sizes : validateBlockFieldSizes canonicalGenesis = .ok () := by
  have hash : isFixedHex canonicalGenesis.hash hashHexLength = true := isFixedHex_sha256Hex _
  have publicKey : isFixedHex canonicalGenesis.validatorPublicKey hashHexLength = true := canonicalFingerprint_fixed
  have index : canonicalGenesis.index = 0 := rfl
  have transactions : canonicalGenesis.transactions = [] := rfl
  simp only [validateBlockFieldSizes, bind_eq_ok, rejectIf_eq_ok, if_pos index, exists_const, hash, publicKey,
    transactions]
  refine ⟨by simp, by simp, ?_⟩
  rintro (previous | validator | key | signature | some)
  · exact previous rfl
  · exact validator rfl
  · exact key trivial
  · exact Bool.noConfusion signature
  · exact some rfl

theorem canonicalCandidate_isValid : canonicalCandidate.blockchain.isValid = true :=
  Rooted.refl_canonical.isValid canonicalGenesis_sizes

/-- The chain of a node and the chains of its synchronizations in flight are
valid. -/
structure Process.ChainsValid (process : Process) : Prop where
  node : process.node.blockchain.isValid = true
  candidates : ∀ syncTask ∈ process.syncTasks, syncTask.candidate.blockchain.isValid = true
  admitted : process.node.Admitted

/-- When a chunk completes a chain that the node is to take over and can store,
the first block of that chain passes `validate_block_field_sizes`. -/
def CompletesWellFormed (config : Process × ChainFile) (event : Environment × Operation) : Prop :=
  match event.2 with
  | .applyChainChunk startIndex totalBlocks blocks => ∀ first rest after,
    Completes config.1.node startIndex totalBlocks blocks (first :: rest) → event.1.answer = .ok () →
    config.1.node.judgeChain event.1.clock (first :: rest) = .ok (some after) →
    validateBlockFieldSizes first = .ok ()
  | _ => True

theorem Admissible.isValid {consensus : Consensus} {before after : Ledger} {block : Block}
    {normals : List Transaction} (admissible : Admissible consensus before.1 block normals)
    (attested : block.Attested) (settled : before.settle block normals = .ok after)
    (valid : before.1.isValid = true) : after.1.isValid = true := by
  have grown : Grown consensus (fun b => b.Attested) before after := .block .start attested admissible settled
  exact grown.isValid (fun _ signed => signed) valid

/-- A step that meets the condition keeps the chain valid. -/
theorem Process.ChainsValid.perform (lawful : SignaturesVerify) {process : Process} {env : Environment}
    {operation : Operation} {file : ChainFile} (before : process.ChainsValid)
    (condition : CompletesWellFormed (process, file) (env, operation)) :
    (process.perform env operation file).process.ChainsValid := by
  have advance := perform_advances env operation file before.admitted
  refine ⟨?_, fun syncTask member => ?_, advance.admitted' before.admitted⟩
  · generalize (process.perform env operation file).process.node = node',
      (process.perform env operation file).file = file',
      (process.perform env operation file).produced = block at advance
    cases advance with
    | kept | admitted => exact before.node
    | received asked written attested future admissible settled =>
      exact Admissible.isValid admissible attested settled (show process.node.ledger.1.isValid = true from before.node)
    | produced timely prepared =>
      exact prepared.admissible.isValid (prepared.sealed.attested lawful) prepared.settled before.node
    | synchronized _ _ asked completes written judged longer first rooted grown chain =>
      subst asked
      exact grown.isValid (fun _ signed => signed.1)
        (rooted.isValid (condition _ _ _ completes written judged))
    | adopted member => exact before.candidates _ member
  · rcases perform_tasks member with old | own | fresh | ⟨earlier, memberEarlier, block, step⟩
    · exact before.candidates syncTask old
    · rw [own]
      exact before.node
    · rw [fresh]
      exact canonicalCandidate_isValid
    · obtain ⟨_, attested, _, normals, admissible, settled⟩ := Node.applyBlockToSyncCandidate_settles step
      exact Admissible.isValid admissible attested settled
        (show earlier.candidate.ledger.1.isValid = true from before.candidates earlier memberEarlier)

/-- In every run whose chunks meet the condition, the chain of the node passes
`is_valid` in every state. -/
theorem Process.run_isValid (lawful : SignaturesVerify) (blockchain : Blockchain) (state : State)
    (consensus : Consensus) (validatorIdentity : Option Wallet) (file : ChainFile)
    (history : List (Environment × Operation)) (valid : blockchain.isValid = true)
    (along : Along Process.step CompletesWellFormed
      (Process.start (Node.new blockchain state consensus) validatorIdentity, file) history) :
    ((Process.start (Node.new blockchain state consensus) validatorIdentity).run file
      history).1.node.blockchain.isValid = true := by
  have start : (Process.start (Node.new blockchain state consensus) validatorIdentity).ChainsValid := by
    refine ⟨valid, ?_, ?_⟩
    · simp [Process.start]
    · simp [Process.start, Process.node, Node.new, Node.Admitted, Mempool.new]
  exact (along.invariant (fun config : Process × ChainFile => config.1.ChainsValid)
    (fun config event before condition => before.perform lawful condition) start).node

end

open Fixture in
/-- A peer's chain whose first block carries the right hash and a signature
besides is taken over, and is not valid: the signature is outside the hash,
and only `is_valid` looks at it. -/
theorem Fixture.signed_genesis_invalidates_chain :
    blockchain.isValid = true ∧
      ((Process.start node none).run .missing
        [(env, .applyChainChunk 0 2 [genesis.withSignature [], firstBlock])]).1.node.blockchain.isValid
        = false := by
  decide +kernel

open Fixture in
/-- The same chunk without that signature meets the condition. -/
theorem Fixture.honest_chunk_isValid :
    ((Process.start node none).run .missing
      [(env, .applyChainChunk 0 2 [genesis, firstBlock])]).1.node.blockchain.isValid = true := by
  refine Process.run_isValid (CryptoTable.lawful table) blockchain state consensus none .missing _
    (by decide +kernel) ⟨?_, trivial⟩
  intro first rest after completes
  obtain ⟨rfl, rfl⟩ := List.cons_eq_cons.mp (show [genesis, firstBlock] = first :: rest from completes.assembled)
  intros
  decide +kernel

end Kybernetes
