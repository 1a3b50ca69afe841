import Kybernetes.History
import Kybernetes.Runtime

namespace Kybernetes

variable [Crypto]

/-- Some reading of the clock lets the time of the block pass. -/
def Timely (clock : Nat → SystemTime) (block : Block) : Prop :=
  ∃ reading, Blockchain.validateFutureTimestamp (clock reading) block.timestamp = .ok ()

/-- What `synchronize_chain` checks of the first block of a longer chain. Its
other fields count only through the hash. -/
structure Rooted (localGenesis genesis : Block) : Prop where
  index : genesis.index = 0
  previousHash : genesis.previousHash = genesisPreviousHash
  hash : genesis.hash = genesis.calculateHash
  same : genesis.hash = localGenesis.hash

omit [Crypto] in
theorem saveBlockchainTo_cases (answer : WriteAnswer) (file : ChainFile) (chain : List Block) :
    (∃ fault, Storage.saveBlockchainTo answer file chain = (.error fault, file)) ∨
      answer = .ok () ∧ Storage.saveBlockchainTo answer file chain = (.ok (), .blocks chain) := by
  unfold Storage.saveBlockchainTo
  split
  · exact Or.inl ⟨_, rfl⟩
  · cases answer with
    | error error => exact Or.inl ⟨_, rfl⟩
    | ok _ => exact Or.inr ⟨rfl, rfl⟩

namespace Node

/-- Every pending transaction passed the checks of admission that do not
depend on the state. -/
def Admitted (node : Node) : Prop :=
  ∀ transaction ∈ node.mempool.transactions, transaction.Genuine node.blockchain.economy

/-- The node with another sync buffer. -/
def withBuffer (node : Node) (syncBuffer : List Block) (syncExpectedTotal : Option UInt64) : Node :=
  { node with syncBuffer, syncExpectedTotal }

/-- The chain that is complete when the given chunk is the last one. -/
def assembledChain (node : Node) (startIndex : UInt64) (blocks : List Block) : List Block :=
  (if startIndex = 0 then [] else node.syncBuffer) ++ blocks

/-- The ledger a node replays chains from. -/
def genesisLedger (node : Node) (genesis : Block) : Ledger :=
  ({ chain := [genesis], economy := node.genesisEconomy }, node.genesisState)

theorem rebuildChain_withBuffer (node : Node) (buffer : List Block) (total : Option UInt64)
    (clock : Nat → SystemTime) (blockchain : Blockchain) (state : State) (rest : List Block) :
    (node.withBuffer buffer total).rebuildChain clock blockchain state rest =
      node.rebuildChain clock blockchain state rest := by
  induction rest generalizing clock blockchain state with
  | nil => rfl
  | cons block rest ih =>
    simp only [rebuildChain, ih]
    rfl

theorem judgeChain_withBuffer (node : Node) (buffer : List Block) (total : Option UInt64)
    (clock : Nat → SystemTime) (chain : List Block) :
    (node.withBuffer buffer total).judgeChain clock chain = node.judgeChain clock chain := by
  simp only [judgeChain, rebuildChain_withBuffer]
  rfl

/-- A rebuilt chain consists of the blocks given, each accepted on the ledger
the ones before it left. -/
theorem rebuildChain_grown {node : Node} {clock : Nat → SystemTime} {blockchain : Blockchain} {state : State}
    {rest : List Block} {after : Ledger} (run : node.rebuildChain clock blockchain state rest = .ok after) :
    Grown node.consensus (fun block => block.Attested ∧ Timely clock block) (blockchain, state) after ∧
      after.1.chain = blockchain.chain ++ rest := by
  induction rest generalizing clock blockchain state with
  | nil =>
    cases run
    exact ⟨.start, by simp⟩
  | cons block rest ih =>
    simp only [rebuildChain, bind_eq_ok] at run
    obtain ⟨⟨nextBlockchain, nextState⟩, step, run⟩ := run
    obtain ⟨attested, future, normals, admissible, settled⟩ := validateAndApplyBlock_eq_ok.mp step
    obtain ⟨grown, chain⟩ := ih run
    have shift : ∀ b : Block, b.Attested ∧ Timely (fun reading => clock (reading + 1)) b →
        b.Attested ∧ Timely clock b := by
      rintro b ⟨signed, reading, passes⟩
      exact ⟨signed, reading + 1, passes⟩
    have first : Grown node.consensus (fun b => b.Attested ∧ Timely clock b) (blockchain, state)
        (nextBlockchain, nextState) := .block .start ⟨attested, 0, future⟩ admissible settled
    refine ⟨first.trans (grown.mono shift), ?_⟩
    have extended : nextBlockchain.chain = blockchain.chain ++ [block] := (admissible.settles settled).chain
    rw [chain, extended, List.append_assoc]
    rfl

/-- A chain of equal length is only looked at: its tip, its validity, its genesis. -/
theorem checkEqualLengthChain_eq_ok {node : Node} {chain : List Block} :
    node.checkEqualLengthChain chain = .ok () ↔
      ∃ localTip tip localGenesis genesis, node.blockchain.chain.getLast? = some localTip ∧
        chain.getLast? = some tip ∧ tip.hash = localTip.hash ∧
        Blockchain.isValid { chain, economy := node.genesisEconomy } = true ∧
        node.blockchain.chain.head? = some localGenesis ∧ chain.head? = some genesis ∧
        genesis.hash = localGenesis.hash := by
  simp only [checkEqualLengthChain, bind_eq_ok, okOr_eq_ok]
  constructor
  · rintro ⟨localTip, last, tip, last', run⟩
    split at run
    · rename_i same
      simp only [bind_eq_ok, rejectIf_eq_ok, okOr_eq_ok, exists_const, not_not] at run
      obtain ⟨valid, localGenesis, first, genesis, first', rooted⟩ := run
      exact ⟨localTip, tip, localGenesis, genesis, last, last', same, valid, first, first', rooted⟩
    · exact absurd trivial (rejectIf_eq_ok.mp run)
  · rintro ⟨localTip, tip, localGenesis, genesis, last, last', same, valid, first, first', rooted⟩
    refine ⟨localTip, last, tip, last', ?_⟩
    rw [if_pos same]
    simp only [bind_eq_ok, rejectIf_eq_ok, okOr_eq_ok, exists_const]
    exact ⟨not_not.mpr valid, localGenesis, first, genesis, first', not_not.mpr rooted⟩

theorem judgeChain_eq_none {node : Node} {clock : Nat → SystemTime} {chain : List Block} :
    node.judgeChain clock chain = .ok none ↔
      chain ≠ [] ∧ chain.length = node.blockchain.chain.length ∧ node.checkEqualLengthChain chain = .ok () := by
  simp only [judgeChain, bind_eq_ok, rejectIf_eq_ok, exists_const]
  constructor
  · rintro ⟨nonempty, _, run⟩
    split at run
    · rename_i same
      obtain ⟨_, equal, _⟩ := bind_eq_ok.mp run
      exact ⟨nonempty, same, equal⟩
    · simp only [bind_eq_ok, rejectIf_eq_ok, pure_eq_ok, reduceCtorEq, and_false, exists_false] at run
  · rintro ⟨nonempty, same, equal⟩
    refine ⟨nonempty, by omega, ?_⟩
    rw [if_pos same]
    exact bind_eq_ok.mpr ⟨(), equal, rfl⟩

theorem judgeChain_some {node : Node} {clock : Nat → SystemTime} {chain : List Block} {after : Ledger}
    (run : node.judgeChain clock chain = .ok (some after)) :
    ∃ localGenesis genesis rest, chain = genesis :: rest ∧
      node.blockchain.chain.length < chain.length ∧
      node.blockchain.chain.head? = some localGenesis ∧ Rooted localGenesis genesis ∧
      Grown node.consensus (fun block => block.Attested ∧ Timely clock block) (node.genesisLedger genesis) after ∧
      after.1.chain = chain := by
  simp only [judgeChain, bind_eq_ok, rejectIf_eq_ok, exists_const, not_lt] at run
  obtain ⟨nonempty, atLeast, run⟩ := run
  split at run
  · simp only [bind_eq_ok, pure_eq_ok] at run
    obtain ⟨_, _, none⟩ := run
    simp at none
  · rename_i differs
    simp only [bind_eq_ok, rejectIf_eq_ok, okOr_eq_ok, pure_eq_ok, exists_const, ne_eq, not_not,
      Option.some.injEq] at run
    obtain ⟨localGenesis, first, genesis, head, index, previousHash, hash, same, _, rebuilt, rfl⟩ := run
    obtain ⟨rest, rfl⟩ : ∃ rest, chain = genesis :: rest := by
      cases chain with
      | nil => simp at head
      | cons b rest => exact ⟨rest, by simpa using head⟩
    obtain ⟨grown, shape⟩ := rebuildChain_grown rebuilt
    exact ⟨localGenesis, genesis, rest, rfl, by omega, first, ⟨index, previousHash, hash, same⟩, grown, shape⟩

omit [Crypto] in
theorem judgeSyncCandidate_eq_true {node : Node} {candidate : Blockchain} :
    node.judgeSyncCandidate candidate = .ok true ↔
      node.blockchain.chain.length < candidate.chain.length ∧
        ∃ localGenesis genesis, node.blockchain.chain.head? = some localGenesis ∧
          candidate.chain.head? = some genesis ∧ genesis.hash = localGenesis.hash := by
  simp only [judgeSyncCandidate, bind_eq_ok, rejectIf_eq_ok, okOr_eq_ok, exists_const, ne_eq, not_not,
    not_lt]
  constructor
  · rintro ⟨localGenesis, first, genesis, head, same, atLeast, run⟩
    split at run
    · simp only [bind_eq_ok, rejectIf_eq_ok, okOr_eq_ok, pure_eq_ok, Bool.false_eq_true, and_false,
        exists_false] at run
    · exact ⟨by omega, localGenesis, genesis, first, head, same⟩
  · rintro ⟨longer, localGenesis, genesis, first, head, same⟩
    refine ⟨localGenesis, first, genesis, head, same, longer.le, ?_⟩
    rw [if_neg longer.ne']
    rfl

end Node

/-- The operation hands the node a block that the node looks at. -/
def Offers (node : Node) (operation : Operation) (block : Block) : Prop :=
  operation = .receiveBlock block ∨
    operation = .receiveBlockMessage block ∧ ∀ known ∈ node.blockchain.chain, known.hash ≠ block.hash

/-- The chunk passes its checks and is the last one of the given chain. -/
structure Completes (node : Node) (startIndex totalBlocks : UInt64) (blocks chain : List Block) : Prop where
  bounds : Node.checkChunkBounds startIndex totalBlocks blocks = .ok ()
  placed : ∃ placed, node.placeChunk startIndex totalBlocks = .ok placed
  indices : Node.checkChunkBlocks startIndex totalBlocks blocks = .ok ()
  assembled : node.assembledChain startIndex blocks = chain
  whole : chain.length = totalBlocks.toNat

/-- What one operation can do to a node and its chain file, with the block it
hands out. Whenever the chain changes, the file becomes the new chain. -/
inductive Advance (env : Environment) (node : Node) (tasks : List SyncTask) (file : ChainFile)
    (operation : Operation) : Node → ChainFile → Option Block → Prop
  | kept (syncBuffer : List Block) (syncExpectedTotal : Option UInt64) :
    Advance env node tasks file operation (node.withBuffer syncBuffer syncExpectedTotal) file none
  | admitted {transaction : Transaction} {mempool : Mempool} (asked : operation = .insertTransaction transaction)
      (valid : Node.validateTransactionForMempool transaction node.state node.blockchain.economy node.mempool
        = .ok ())
      (added : node.mempool.addTransaction transaction = (true, mempool)) :
    Advance env node tasks file operation { node with mempool } file none
  | received {block : Block} {normals : List Transaction} {after : Ledger}
      (asked : Offers node operation block) (written : env.answer = .ok ()) (attested : block.Attested)
      (future : Blockchain.validateFutureTimestamp (env.clock 0) block.timestamp = .ok ())
      (admissible : Admissible node.consensus node.blockchain block normals)
      (settled : node.ledger.settle block normals = .ok after) :
    Advance env node tasks file operation
      { node with
        blockchain := after.1
        state := after.2
        mempool := Node.removeConfirmedTransactions node.mempool block }
      (.blocks after.1.chain) none
  | produced {now : SystemTime} {timestamp : UInt64} {wallet : Wallet} {block : Block}
      {normals : List Transaction} {after : Ledger} {mempool : Mempool} (timely : Timely env.clock block)
      (prepared : Prepared node now timestamp wallet block normals after mempool) :
    Advance env node tasks file operation
      { node with blockchain := after.1, state := after.2, mempool } (.blocks after.1.chain) (some block)
  | synchronized {startIndex totalBlocks : UInt64} {blocks : List Block} {localGenesis genesis : Block}
      {rest : List Block} {after : Ledger} (syncBuffer : List Block) (syncExpectedTotal : Option UInt64)
      (asked : operation = .applyChainChunk startIndex totalBlocks blocks)
      (completes : Completes node startIndex totalBlocks blocks (genesis :: rest)) (written : env.answer = .ok ())
      (judged : node.judgeChain env.clock (genesis :: rest) = .ok (some after))
      (longer : node.blockchain.chain.length < (genesis :: rest).length)
      (first : node.blockchain.chain.head? = some localGenesis) (rooted : Rooted localGenesis genesis)
      (grown : Grown node.consensus (fun block => block.Attested ∧ Timely env.clock block)
        (node.genesisLedger genesis) after)
      (chain : after.1.chain = genesis :: rest) :
    Advance env node tasks file operation
      { node.withBuffer syncBuffer syncExpectedTotal with
        blockchain := after.1, state := after.2, mempool := Mempool.new }
      (.blocks after.1.chain) none
  | adopted {syncTask : SyncTask} {localGenesis genesis : Block} (member : syncTask ∈ tasks)
      (longer : node.blockchain.chain.length < syncTask.candidate.blockchain.chain.length)
      (first : node.blockchain.chain.head? = some localGenesis)
      (head : syncTask.candidate.blockchain.chain.head? = some genesis)
      (same : genesis.hash = localGenesis.hash) :
    Advance env node tasks file operation
      { node with
        blockchain := syncTask.candidate.blockchain
        state := syncTask.candidate.state
        mempool := Mempool.new }
      (.blocks syncTask.candidate.blockchain.chain) none

section Advance

variable {env : Environment} {node : Node} {tasks : List SyncTask} {file : ChainFile} {operation : Operation}

theorem Advance.same : Advance env node tasks file operation node file none :=
  .kept node.syncBuffer node.syncExpectedTotal

theorem addTransaction_false {mempool mempool' : Mempool} {transaction : Transaction}
    (refused : mempool.addTransaction transaction = (false, mempool')) : mempool' = mempool := by
  unfold Mempool.addTransaction at refused
  repeat' split at refused
  · exact (congrArg Prod.snd refused).symm
  · exact (congrArg Prod.snd refused).symm
  · exact (congrArg Prod.snd refused).symm
  · exact (congrArg Prod.snd refused).symm
  · cases refused

theorem insertTransaction_advances (transaction : Transaction) :
    Advance env node tasks file (.insertTransaction transaction)
      (node.insertTransactionIntoMempool transaction).2 file none := by
  unfold Node.insertTransactionIntoMempool
  split
  · exact .same
  · rename_i valid
    split
    · rename_i mempool added
      exact .admitted rfl valid added
    · rename_i mempool refused
      rw [addTransaction_false refused]
      exact .same

theorem receiveBlock_advances {block : Block} (asked : Offers node operation block) :
    Advance env node tasks file operation (node.receiveBlock (env.clock 0) env.answer file block).2.1
      (node.receiveBlock (env.clock 0) env.answer file block).2.2 none := by
  unfold Node.receiveBlock
  split
  · exact .same
  · exact .same
  · rename_i blockchain state valid
    obtain ⟨attested, future, normals, admissible, settled⟩ := Node.validateAndApplyBlock_eq_ok.mp valid
    rcases saveBlockchainTo_cases env.answer file blockchain.chain with ⟨fault, save⟩ | ⟨written, save⟩
    · rw [save]
      exact .same
    · rw [save]
      exact .received asked written attested future admissible settled

theorem receiveBlockMessage_advances (block : Block) :
    Advance env node tasks file (.receiveBlockMessage block)
      (node.receiveBlockMessage (env.clock 0) env.answer file block).2.1
      (node.receiveBlockMessage (env.clock 0) env.answer file block).2.2 none := by
  unfold Node.receiveBlockMessage
  split
  · exact .same
  · rename_i unknown
    refine receiveBlock_advances (Or.inr ⟨rfl, fun known member same => unknown ?_⟩)
    exact List.any_eq_true.mpr ⟨known, member, beq_iff_eq.mpr same⟩

theorem produceBlock_advances (env : Environment) (tasks : List SyncTask) (file : ChainFile) (operation : Operation)
    (admitted : node.Admitted) (reading : Nat) (answer : WriteAnswer)
    (timestamp : UInt64) (wallet : Wallet) :
    Advance env node tasks file operation
      (node.produceBlock (env.clock reading) answer file timestamp wallet).2.1
      (node.produceBlock (env.clock reading) answer file timestamp wallet).2.2
      (node.produceBlock (env.clock reading) answer file timestamp wallet).1.toOption := by
  unfold Node.produceBlock
  split
  · exact .same
  · rename_i block blockchain mempool state ready
    obtain ⟨normals, prepared⟩ := Node.prepareBlock_prepared admitted ready
    rcases saveBlockchainTo_cases answer file blockchain.chain with ⟨fault, save⟩ | ⟨_, save⟩
    · rw [save]
      exact .same
    · rw [save]
      exact .produced ⟨reading, by rw [prepared.timed]; exact prepared.future⟩ prepared

/-- Synchronization commits a judged chain, or finds that the node has it, or
fails and leaves everything as it was. -/
theorem synchronizeChain_cases (node : Node) (clock : Nat → SystemTime) (answer : WriteAnswer) (file : ChainFile)
    (chain : List Block) :
    (∃ fault, node.synchronizeChain clock answer file chain = (.error fault, node, file)) ∨
      (node.judgeChain clock chain = .ok none ∧
        node.synchronizeChain clock answer file chain = (.ok (), node, file)) ∨
      ∃ after, node.judgeChain clock chain = .ok (some after) ∧
        node.synchronizeChain clock answer file chain =
          (.ok (), { node with blockchain := after.1, state := after.2, mempool := Mempool.new },
            .blocks after.1.chain) ∧ answer = .ok () := by
  unfold Node.synchronizeChain
  split
  · exact Or.inl ⟨_, rfl⟩
  · rename_i judged
    exact Or.inr (Or.inl ⟨judged, rfl⟩)
  · rename_i blockchain state judged
    rcases saveBlockchainTo_cases answer file blockchain.chain with ⟨fault, save⟩ | ⟨written, save⟩
    · rw [save]
      exact Or.inl ⟨_, rfl⟩
    · rw [save]
      exact Or.inr (Or.inr ⟨(blockchain, state), judged, rfl, written⟩)

omit [Crypto] in
theorem placeChunk_eq_ok {placed : Node} {startIndex totalBlocks : UInt64}
    (run : node.placeChunk startIndex totalBlocks = .ok placed) :
    ∃ buffer total, placed = node.withBuffer buffer total ∧
      ∀ blocks, buffer ++ blocks = node.assembledChain startIndex blocks := by
  unfold Node.placeChunk at run
  unfold Node.assembledChain
  split at run
  · rename_i zero
    rw [if_pos zero]
    exact ⟨_, _, (pure_eq_ok.mp run).symm, fun _ => rfl⟩
  · rename_i nonzero
    simp only [bind_eq_ok, rejectIf_eq_ok, pure_eq_ok, exists_const] at run
    obtain ⟨_, _, rfl⟩ := run
    rw [if_neg nonzero]
    exact ⟨_, _, rfl, fun _ => rfl⟩

theorem applyChainChunk_advances (startIndex totalBlocks : UInt64) (blocks : List Block) :
    Advance env node tasks file (.applyChainChunk startIndex totalBlocks blocks)
      (node.applyChainChunk env.clock env.answer file startIndex totalBlocks blocks).2.1
      (node.applyChainChunk env.clock env.answer file startIndex totalBlocks blocks).2.2 none := by
  unfold Node.applyChainChunk Node.acceptChainChunk
  split
  · exact .same
  rename_i bounds
  split
  · exact .same
  rename_i placed place
  have placeable : ∃ placed, node.placeChunk startIndex totalBlocks = .ok placed := ⟨placed, place⟩
  obtain ⟨buffer, total, rfl, buffered⟩ := placeChunk_eq_ok place
  split
  · exact .kept _ _
  rename_i indices
  dsimp only
  split
  · exact .kept _ _
  split
  · exact .kept _ _
  rename_i complete
  -- the buffer now holds the whole announced chain
  rcases synchronizeChain_cases (node.withBuffer [] none) env.clock env.answer file
    (node.assembledChain startIndex blocks) with ⟨fault, kept⟩ | ⟨_, kept⟩ | ⟨after, judged, done, written⟩
  · simp only [Node.withBuffer, buffered] at kept ⊢
    rw [kept]
    exact .kept [] none
  · simp only [Node.withBuffer, buffered] at kept ⊢
    rw [kept]
    exact .kept [] none
  · rw [Node.judgeChain_withBuffer] at judged
    obtain ⟨localGenesis, genesis, rest, shape, longer, first, rooted, grown, chain⟩ := Node.judgeChain_some judged
    simp only [Node.withBuffer, buffered] at done ⊢
    rw [done]
    have whole : (node.assembledChain startIndex blocks).length = totalBlocks.toNat := by
      rw [← buffered]
      exact not_not.mp complete
    rw [shape] at whole longer judged
    exact .synchronized [] none rfl ⟨bounds, placeable, indices, shape, whole⟩ written judged longer first rooted
      grown (by rw [chain, shape])

/-- The check of a chain of equal length changes nothing. -/
theorem verifyEqualChain_keeps (node : Node) (clock : Nat → SystemTime) (answer : WriteAnswer) (file : ChainFile)
    (chain : List Block) : ∃ result, node.verifyEqualChain clock answer file chain = (result, node, file) := by
  unfold Node.verifyEqualChain
  split
  · exact ⟨_, rfl⟩
  · rename_i same
    rcases synchronizeChain_cases node clock answer file chain with ⟨fault, kept⟩ | ⟨_, kept⟩ | ⟨after, judged, _⟩
    · exact ⟨_, kept⟩
    · exact ⟨_, kept⟩
    · obtain ⟨_, _, _, _, longer, _⟩ := Node.judgeChain_some judged
      omega

theorem verifyEqualChain_advances (answer : WriteAnswer) (chain : List Block) :
    Advance env node tasks file operation (node.verifyEqualChain env.clock answer file chain).2.1
      (node.verifyEqualChain env.clock answer file chain).2.2 none := by
  obtain ⟨result, kept⟩ := verifyEqualChain_keeps node env.clock answer file chain
  rw [kept]
  exact .same

omit [Crypto] in
theorem adoptValidatedSyncCandidate_cases (node : Node) (answer : WriteAnswer) (file : ChainFile)
    (candidate : Blockchain) (state : State) :
    (∃ result, node.adoptValidatedSyncCandidate answer file candidate state = (result, node, file)) ∨
      node.judgeSyncCandidate candidate = .ok true ∧
        node.adoptValidatedSyncCandidate answer file candidate state =
          (.ok (), { node with blockchain := candidate, state, mempool := Mempool.new },
            .blocks candidate.chain) := by
  unfold Node.adoptValidatedSyncCandidate
  split
  · exact Or.inl ⟨_, rfl⟩
  · exact Or.inl ⟨_, rfl⟩
  · rename_i judged
    rcases saveBlockchainTo_cases answer file candidate.chain with ⟨fault, save⟩ | ⟨_, save⟩
    · rw [save]
      exact Or.inl ⟨_, rfl⟩
    · rw [save]
      exact Or.inr ⟨judged, rfl⟩

end Advance

namespace Process

variable {env : Environment} {process : Process} {file : ChainFile} {operation : Operation}

theorem commitSync_advances (answer : WriteAnswer) (task : Nat) :
    Advance env process.node process.syncTasks file operation (process.commitSync answer file task).1.node
      (process.commitSync answer file task).2 none := by
  unfold commitSync
  split
  · exact .same
  · rename_i syncTask found
    dsimp only
    split
    · exact .same
    · rcases adoptValidatedSyncCandidate_cases process.node answer file syncTask.candidate.blockchain
        syncTask.candidate.state with ⟨result, kept⟩ | ⟨judged, done⟩
      · simp only [Process.node] at kept ⊢
        rw [kept]
        exact .same
      · obtain ⟨longer, localGenesis, genesis, first, head, same⟩ := Node.judgeSyncCandidate_eq_true.mp judged
        simp only [Process.node] at done ⊢
        rw [done]
        exact .adopted (List.mem_of_getElem? found) longer first head same

theorem tryProducePendingBlock_advances (env : Environment) (file : ChainFile) (operation : Operation)
    (admitted : process.node.Admitted) :
    Advance env process.node process.syncTasks file operation
      (process.runtime.tryProducePendingBlock env.clock env.answer file).2.1.node
      (process.runtime.tryProducePendingBlock env.clock env.answer file).2.2
      ((process.runtime.tryProducePendingBlock env.clock env.answer file).1.toOption.bind id) := by
  unfold NodeRuntime.tryProducePendingBlock
  split
  · exact .same
  rename_i identity _
  split
  · exact .same
  split
  · exact .same
  split
  · exact .same
  split
  · exact .same
  split
  · exact .same
  split
  · exact .same
  rename_i next _
  have produced := produceBlock_advances env process.syncTasks file operation admitted 1 env.answer
    (max (NodeRuntime.currentTimestamp (env.clock 0)) next) identity
  simp only [Process.node] at produced ⊢
  split
  · rename_i run
    rw [run] at produced
    exact produced
  · rename_i run
    rw [run] at produced
    exact produced

/-- Every operation advances the node in one of the six ways. -/
theorem perform_advances (env : Environment) (operation : Operation) (file : ChainFile)
    (admitted : process.node.Admitted) :
    Advance env process.node process.syncTasks file operation
      (process.perform env operation file).process.node (process.perform env operation file).file
      (process.perform env operation file).produced := by
  cases operation with
  | insertTransaction transaction => exact insertTransaction_advances transaction
  | receiveBlock block => exact receiveBlock_advances (Or.inl rfl)
  | receiveBlockMessage block => exact receiveBlockMessage_advances block
  | produceBlock timestamp wallet =>
    have produced := produceBlock_advances env process.syncTasks file (.produceBlock timestamp wallet) admitted 0
      env.answer timestamp wallet
    simp only [perform]
    split
    · rename_i run
      rw [run] at produced
      exact produced
    · rename_i run
      rw [run] at produced
      exact produced
  | tryProducePendingBlock =>
    have produced := tryProducePendingBlock_advances env file .tryProducePendingBlock admitted
    simp only [perform]
    split
    · rename_i run
      rw [run] at produced
      exact produced
    · rename_i run
      rw [run] at produced
      exact produced
  | setChainSyncActive active => exact .same
  | applyChainChunk startIndex totalBlocks blocks =>
    exact applyChainChunk_advances startIndex totalBlocks blocks
  | requestChain => exact .kept [] none
  | verifyEqualChain chain => exact verifyEqualChain_advances env.answer chain
  | beginExtend => exact .same
  | beginReplace => exact .same
  | applySyncBlock task block =>
    simp only [perform, applySyncBlock]
    split
    · exact .same
    · split
      · exact .same
      · exact .same
  | commitSync task => exact commitSync_advances env.answer task

/-- Where the candidates of synchronizations come from. -/
theorem perform_tasks {syncTask : SyncTask}
    (member : syncTask ∈ (process.perform env operation file).process.syncTasks) :
    syncTask ∈ process.syncTasks ∨ syncTask.candidate = process.node.syncCandidateSnapshot ∨
      syncTask.candidate = canonicalCandidate ∨
      ∃ earlier ∈ process.syncTasks, ∃ block,
        earlier.candidate.applyBlockToSyncCandidate (env.clock 0) block = .ok syncTask.candidate := by
  cases operation with
  | insertTransaction | receiveBlock | receiveBlockMessage | setChainSyncActive | applyChainChunk | requestChain
  | verifyEqualChain => exact Or.inl member
  | produceBlock =>
    simp only [perform] at member
    split at member <;> exact Or.inl member
  | tryProducePendingBlock =>
    simp only [perform] at member
    split at member <;> exact Or.inl member
  | beginExtend =>
    rcases List.mem_append.mp member with old | new
    · exact Or.inl old
    · rw [List.mem_singleton.mp new]
      exact Or.inr (Or.inl rfl)
  | beginReplace =>
    rcases List.mem_append.mp member with old | new
    · exact Or.inl old
    · rw [List.mem_singleton.mp new]
      exact Or.inr (Or.inr (Or.inl rfl))
  | applySyncBlock task block =>
    simp only [perform, applySyncBlock] at member
    split at member
    · exact Or.inl member
    · rename_i earlier found
      split at member
      · exact Or.inl (List.mem_of_mem_eraseIdx member)
      · rename_i candidate step
        rcases List.mem_or_eq_of_mem_set member with old | rfl
        · exact Or.inl old
        · exact Or.inr (Or.inr (Or.inr ⟨earlier, List.mem_of_getElem? found, block, step⟩))
  | commitSync task =>
    simp only [perform, commitSync] at member
    split at member
    · exact Or.inl member
    · split at member <;> exact Or.inl (List.mem_of_mem_eraseIdx member)

end Process

end Kybernetes
