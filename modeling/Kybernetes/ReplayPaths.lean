import Kybernetes.Restart

namespace Kybernetes

open Bootstrap
open Process (canonicalCandidate)

section

variable [Crypto]

namespace Node

/-- `apply_block_to_sync_candidate` for a list of blocks, as the drivers of
replay call it: the first failure ends the loop. -/
def applyBlocksToSyncCandidate : (candidate : Node) → (clock : Nat → SystemTime) → List Block → Result Node
  | candidate, _, [] => .ok candidate
  | candidate, clock, block :: rest => do
    let candidate ← candidate.applyBlockToSyncCandidate (clock 0) block
    applyBlocksToSyncCandidate candidate (fun reading => clock (reading + 1)) rest

/-- `receive_block` for a list of blocks in turn: whether all of them returned
true, with the node and the file after the last call. -/
def receiveBlocks : (self : Node) → (now : SystemTime) → (file : ChainFile) → List Block → Bool × Node × ChainFile
  | self, _, file, [] => (true, self, file)
  | self, now, file, block :: rest =>
    match self.receiveBlock now (.ok ()) file block with
    | (.ok true, self, file) => receiveBlocks self now file rest
    | (_, self, file) => (false, self, file)

/-- The node on another ledger, with what some blocks leave of its pool. -/
def onLedger (node : Node) (after : Ledger) (blocks : List Block) : Node :=
  { node with
    blockchain := after.1
    state := after.2
    mempool := blocks.foldl removeConfirmedTransactions node.mempool }

end Node

/-- `load_replayed_state`: what a wallet on the data directory reads off the
stored chain. -/
def TransactionSubmission.loadReplayedState (clock : Nat → SystemTime) (file : ChainFile) :
    Result (State × Economy) := do
  let stored ← Storage.loadBlockchainFrom file
  let chain ← okOr stored "Blockchain file was not found"
  let bootstrap ← canonicalBootstrap
  let storedGenesis ← okOr chain.head? "Stored blockchain is empty"
  let canonicalGenesis ← okOr bootstrap.blockchain.chain.head? "Canonical genesis was not found"
  rejectIf (storedGenesis.hash ≠ storedGenesis.calculateHash) "Stored genesis hash integrity is invalid"
  rejectIf (storedGenesis.hash ≠ canonicalGenesis.hash)
    "Stored genesis does not match canonical Kybernetes genesis"
  let replayNode := Node.new bootstrap.blockchain bootstrap.state bootstrap.consensus
  let replayNode ← replayNode.applyBlocksToSyncCandidate clock chain.tail
  return (replayNode.state, replayNode.blockchain.economy)

namespace Node

variable {node : Node} {clock : Nat → SystemTime} {now : SystemTime}

/-- Validation looks at nothing of the node but its consensus set. -/
theorem validateAndApplyBlock_congr {node' : Node} (same : node'.consensus = node.consensus) (now : SystemTime)
    (block : Block) (blockchain : Blockchain) (state : State) :
    node'.validateAndApplyBlock now block blockchain state = node.validateAndApplyBlock now block blockchain state := by
  simp only [validateAndApplyBlock, same]

theorem rebuildChain_congr {node' : Node} (same : node'.consensus = node.consensus) (clock : Nat → SystemTime)
    (blockchain : Blockchain) (state : State) (blocks : List Block) :
    node'.rebuildChain clock blockchain state blocks = node.rebuildChain clock blockchain state blocks := by
  induction blocks generalizing clock blockchain state with
  | nil => rfl
  | cons block rest ih => simp only [rebuildChain, validateAndApplyBlock_congr same, ih]

theorem rebuildChain_onLedger (node : Node) (ledger : Ledger) (confirmed : List Block) (clock : Nat → SystemTime)
    (blockchain : Blockchain) (state : State) (blocks : List Block) :
    (node.onLedger ledger confirmed).rebuildChain clock blockchain state blocks =
      node.rebuildChain clock blockchain state blocks := by
  have same : (node.onLedger ledger confirmed).consensus = node.consensus := rfl
  exact rebuildChain_congr same clock blockchain state blocks

/-- The loop over a candidate is the loop of `synchronize_chain` on its ledger. -/
theorem applyBlocksToSyncCandidate_eq_ok {candidate : Node} {blocks : List Block} :
    node.applyBlocksToSyncCandidate clock blocks = .ok candidate ↔
      ∃ after, node.rebuildChain clock node.blockchain node.state blocks = .ok after ∧
        candidate = node.onLedger after blocks := by
  induction blocks generalizing node clock with
  | nil =>
    simp only [applyBlocksToSyncCandidate, rebuildChain, Except.ok.injEq, exists_eq_left']
    exact eq_comm
  | cons block rest ih =>
    simp only [applyBlocksToSyncCandidate, applyBlockToSyncCandidate, rebuildChain, bind_eq_ok, pure_eq_ok]
    constructor
    · rintro ⟨_, ⟨next, valid, rfl⟩, run⟩
      obtain ⟨after, rebuilt, rfl⟩ := ih.mp run
      refine ⟨after, ⟨next, valid, ?_⟩, rfl⟩
      rw [← rebuilt]
      exact (node.rebuildChain_onLedger next [block] _ _ _ _).symm
    · rintro ⟨after, ⟨next, valid, rebuilt⟩, rfl⟩
      refine ⟨_, ⟨next, valid, rfl⟩, ih.mpr ⟨after, ?_, rfl⟩⟩
      rw [← rebuilt]
      exact node.rebuildChain_onLedger next [block] _ _ _ _

theorem receiveBlock_true {node' : Node} {file file' : ChainFile} {block : Block} :
    node.receiveBlock now (.ok ()) file block = (.ok true, node', file') ↔
      ∃ after, node.validateAndApplyBlock now block node.blockchain node.state = .ok after ∧
        node' = node.onLedger after [block] ∧ file' = .blocks after.1.chain := by
  unfold receiveBlock
  cases valid : node.validateAndApplyBlock now block node.blockchain node.state with
  | error fault => cases fault <;> simp
  | ok after =>
    obtain ⟨_, _, normals, admissible, settled⟩ := validateAndApplyBlock_eq_ok.mp valid
    have nonempty : after.1.chain ≠ [] := by simp [(admissible.settles settled).chain]
    dsimp only
    rw [saveBlockchainTo_ok nonempty]
    simp only [Prod.mk.injEq, true_and, Except.ok.injEq, exists_eq_left', onLedger, List.foldl_cons, List.foldl_nil]
    constructor
    · intro run
      exact ⟨run.1.symm, run.2.symm⟩
    · intro run
      exact ⟨run.1.symm, run.2.symm⟩

/-- So is receiving the blocks in turn, one file for each. -/
theorem receiveBlocks_true {node' : Node} {file file' : ChainFile} {blocks : List Block} :
    node.receiveBlocks now file blocks = (true, node', file') ↔
      ∃ after, node.rebuildChain (fun _ => now) node.blockchain node.state blocks = .ok after ∧
        node' = node.onLedger after blocks ∧ file' = if blocks = [] then file else .blocks after.1.chain := by
  induction blocks generalizing node file with
  | nil =>
    simp only [receiveBlocks, rebuildChain, Prod.mk.injEq, true_and, Except.ok.injEq, exists_eq_left', if_true]
    constructor
    · intro run
      exact ⟨run.1.symm, run.2.symm⟩
    · intro run
      exact ⟨run.1.symm, run.2.symm⟩
  | cons block rest ih =>
    simp only [receiveBlocks, rebuildChain, bind_eq_ok]
    rcases received : node.receiveBlock now (.ok ()) file block with ⟨result, next, file''⟩
    by_cases accepted : result = .ok true
    · subst accepted
      obtain ⟨middle, valid, rfl, rfl⟩ := receiveBlock_true.mp received
      have congr : ∀ after : Ledger,
          (node.onLedger middle [block]).rebuildChain (fun _ => now) middle.1 middle.2 rest = .ok after ↔
            node.rebuildChain (fun _ => now) middle.1 middle.2 rest = .ok after := by
        intro after
        rw [rebuildChain_onLedger]
      have stored : ∀ after : Ledger, node.rebuildChain (fun _ => now) middle.1 middle.2 rest = .ok after →
          (if rest = [] then ChainFile.blocks middle.1.chain else .blocks after.1.chain) =
            .blocks after.1.chain := by
        intro after run
        split
        · rename_i empty
          rw [empty] at run
          cases run
          rfl
        · rfl
      constructor
      · intro run
        obtain ⟨after, rebuilt, rfl, rfl⟩ := ih.mp run
        have rebuilt' := (congr after).mp rebuilt
        exact ⟨after, ⟨middle, valid, rebuilt'⟩, rfl, stored after rebuilt'⟩
      · rintro ⟨after, ⟨middle', valid', rebuilt⟩, rfl, rfl⟩
        cases valid.symm.trans valid'
        exact ih.mpr ⟨after, (congr after).mpr rebuilt, rfl, (stored after rebuilt).symm⟩
    · constructor
      · intro run
        split at run
        · rename_i same
          cases same
          exact absurd rfl accepted
        · cases run
      · rintro ⟨after, ⟨middle, valid, _⟩, _⟩
        have whole : node.receiveBlock now (.ok ()) file block =
            (.ok true, node.onLedger middle [block], .blocks middle.1.chain) :=
          receiveBlock_true.mpr ⟨middle, valid, rfl, rfl⟩
        rw [received] at whole
        exact absurd (congrArg Prod.fst whole) accepted

omit [Crypto] in
theorem foldl_removeConfirmedTransactions_new (blocks : List Block) :
    blocks.foldl removeConfirmedTransactions Mempool.new = Mempool.new := by
  induction blocks with
  | nil => rfl
  | cons block rest ih => exact ih

/-- A node that has a genesis, which is in order, and nothing else yet. -/
structure AtGenesis (node : Node) (genesis : Block) : Prop where
  rooted : Rooted genesis genesis
  blockchain : node.blockchain = { Blockchain.new genesis with economy := node.genesisEconomy }
  state : node.state = node.genesisState
  pool : node.mempool = Mempool.new
  valid : Blockchain.isValid { chain := [genesis], economy := node.genesisEconomy } = true

variable {genesis : Block}

theorem AtGenesis.chain (atGenesis : node.AtGenesis genesis) : node.blockchain.chain = [genesis] := by
  rw [atGenesis.blockchain]
  rfl

/-- The genesis alone is the chain that the node has. -/
theorem AtGenesis.judged (atGenesis : node.AtGenesis genesis) (clock : Nat → SystemTime) :
    node.judgeChain clock [genesis] = .ok none := by
  have chain := atGenesis.chain
  refine judgeChain_eq_none.mpr ⟨List.cons_ne_nil _ _, by rw [chain], checkEqualLengthChain_eq_ok.mpr ?_⟩
  exact ⟨genesis, genesis, genesis, genesis, by rw [chain]; rfl, rfl, rfl, atGenesis.valid, by rw [chain]; rfl, rfl,
    rfl⟩

/-- A chain that begins with the genesis of the node is judged by the replay of the blocks behind it. -/
theorem AtGenesis.judgeChain (atGenesis : node.AtGenesis genesis) {blocks : List Block} (nonempty : blocks ≠ [])
    {judgement : Option Ledger} :
    node.judgeChain clock (genesis :: blocks) = .ok judgement ↔
      ∃ after, node.rebuildChain clock node.blockchain node.state blocks = .ok after ∧ judgement = some after := by
  have single := atGenesis.chain
  have rooted := atGenesis.rooted
  have count := List.length_pos_of_ne_nil nonempty
  simp only [Node.judgeChain, bind_eq_ok, rejectIf_eq_ok, exists_const, single, List.length_cons, List.length_nil]
  rw [if_neg (by omega)]
  simp only [bind_eq_ok, rejectIf_eq_ok, okOr_eq_ok, pure_eq_ok, exists_const, List.head?_cons, List.tail_cons,
    ← atGenesis.state]
  constructor
  · rintro ⟨_, _, _, ⟨⟩, _, ⟨⟩, _, _, _, _, after, rebuilt, same⟩
    rw [← atGenesis.blockchain] at rebuilt
    exact ⟨after, rebuilt, same.symm⟩
  · rintro ⟨after, rebuilt, rfl⟩
    refine ⟨by simp, by omega, _, rfl, _, rfl, not_not.mpr rooted.index, not_not.mpr rooted.previousHash,
      not_not.mpr rooted.hash, not_not.mpr rfl, after, ?_, rfl⟩
    rw [← atGenesis.blockchain]
    exact rebuilt

theorem AtGenesis.synchronizeChain (atGenesis : node.AtGenesis genesis) (clock : Nat → SystemTime) (file : ChainFile)
    (blocks : List Block) :
    let run := node.synchronizeChain clock (.ok ()) file (genesis :: blocks)
    (run.1 = .ok () ↔ ∃ after, node.rebuildChain clock node.blockchain node.state blocks = .ok after) ∧
    ∀ after, node.rebuildChain clock node.blockchain node.state blocks = .ok after →
      run.2.1 = node.onLedger after blocks := by
  intro run
  by_cases empty : blocks = []
  · subst empty
    -- the shortcut for a chain as long as the local one
    have kept : run = (.ok (), node, file) := by
      simp only [run, Node.synchronizeChain, atGenesis.judged]
    rw [kept]
    refine ⟨⟨fun _ => ⟨_, rfl⟩, fun _ => rfl⟩, ?_⟩
    rintro after ⟨⟩
    rfl
  · have done : ∀ after, node.rebuildChain clock node.blockchain node.state blocks = .ok after →
        run = (.ok (), node.onLedger after blocks, .blocks after.1.chain) := by
      intro after rebuilt
      have nonempty : after.1.chain ≠ [] := by
        rw [(rebuildChain_grown rebuilt).2]
        simp [empty]
      have judged := (atGenesis.judgeChain empty).mpr ⟨after, rebuilt, rfl⟩
      simp only [run, Node.synchronizeChain, judged]
      rw [saveBlockchainTo_ok nonempty]
      simp only [onLedger, atGenesis.pool, foldl_removeConfirmedTransactions_new]
    refine ⟨⟨fun finished => ?_, fun ⟨after, rebuilt⟩ => by rw [done after rebuilt]⟩,
      fun after rebuilt => by rw [done after rebuilt]⟩
    cases judged : node.judgeChain clock (genesis :: blocks) with
    | error fault => simp [run, Node.synchronizeChain, judged] at finished
    | ok judgement =>
      obtain ⟨after, rebuilt, _⟩ := (atGenesis.judgeChain empty).mp judged
      exact ⟨after, rebuilt⟩

/-- Handing over the whole chain, applying its blocks to a candidate and receiving them one by one succeed
together, and leave the same chain, accounts and economy. -/
theorem AtGenesis.paths_agree (atGenesis : node.AtGenesis genesis) (now : SystemTime) (file : ChainFile)
    (blocks : List Block) :
    let synchronized := node.synchronizeChain (fun _ => now) (.ok ()) file (genesis :: blocks)
    let applied := node.applyBlocksToSyncCandidate (fun _ => now) blocks
    let received := node.receiveBlocks now file blocks
    (synchronized.1 = .ok () ↔ ∃ candidate, applied = .ok candidate) ∧
      ((∃ candidate, applied = .ok candidate) ↔ received.1 = true) ∧
      ∀ candidate, applied = .ok candidate →
        candidate.blockchain.chain = genesis :: blocks ∧
        (synchronized.2.1.blockchain = candidate.blockchain ∧ synchronized.2.1.state = candidate.state) ∧
        received.2.1.blockchain = candidate.blockchain ∧ received.2.1.state = candidate.state := by
  intro synchronized applied received
  obtain ⟨finishes, finished⟩ := atGenesis.synchronizeChain (fun _ => now) file blocks
  have applies : (∃ candidate, applied = .ok candidate) ↔
      ∃ after, node.rebuildChain (fun _ => now) node.blockchain node.state blocks = .ok after := by
    constructor
    · rintro ⟨candidate, run⟩
      obtain ⟨after, rebuilt, _⟩ := applyBlocksToSyncCandidate_eq_ok.mp run
      exact ⟨after, rebuilt⟩
    · rintro ⟨after, rebuilt⟩
      exact ⟨_, applyBlocksToSyncCandidate_eq_ok.mpr ⟨after, rebuilt, rfl⟩⟩
  have receipt : ∀ after, node.rebuildChain (fun _ => now) node.blockchain node.state blocks = .ok after →
      received = (true, node.onLedger after blocks, if blocks = [] then file else .blocks after.1.chain) :=
    fun after rebuilt => receiveBlocks_true.mpr ⟨after, rebuilt, rfl, rfl⟩
  refine ⟨finishes.trans applies.symm, applies.trans ⟨?_, fun all => ?_⟩, fun candidate run => ?_⟩
  · rintro ⟨after, rebuilt⟩
    rw [receipt after rebuilt]
  · have whole : node.receiveBlocks now file blocks = (true, received.2.1, received.2.2) := by
      rw [← all]
    obtain ⟨after, rebuilt, _⟩ := receiveBlocks_true.mp whole
    exact ⟨after, rebuilt⟩
  · obtain ⟨after, rebuilt, rfl⟩ := applyBlocksToSyncCandidate_eq_ok.mp run
    rw [receipt after rebuilt]
    have same : synchronized.2.1 = node.onLedger after blocks := finished after rebuilt
    have chain : after.1.chain = genesis :: blocks := by
      rw [(rebuildChain_grown rebuilt).2, atGenesis.chain, List.singleton_append]
    rw [same]
    exact ⟨chain, ⟨rfl, rfl⟩, rfl, rfl⟩

end Node

open Node

theorem canonicalCandidate_atGenesis : canonicalCandidate.AtGenesis canonicalGenesis where
  rooted := .refl_canonical
  blockchain := rfl
  state := rfl
  pool := rfl
  valid := Rooted.refl_canonical.isValid canonicalGenesis_sizes

/-- All replay paths agree: handing over the whole chain, applying its blocks
to a candidate and receiving them one by one succeed together, and leave the
same chain, which is the one handed over, and the same accounts and economy. -/
theorem replay_paths_agree (now : SystemTime) (file : ChainFile) (blocks : List Block) :
    let synchronized := canonicalCandidate.synchronizeChain (fun _ => now) (.ok ()) file (canonicalGenesis :: blocks)
    let applied := canonicalCandidate.applyBlocksToSyncCandidate (fun _ => now) blocks
    let received := canonicalCandidate.receiveBlocks now file blocks
    (synchronized.1 = .ok () ↔ ∃ candidate, applied = .ok candidate) ∧
      ((∃ candidate, applied = .ok candidate) ↔ received.1 = true) ∧
      ∀ candidate, applied = .ok candidate →
        candidate.blockchain.chain = canonicalGenesis :: blocks ∧
        (synchronized.2.1.blockchain = candidate.blockchain ∧ synchronized.2.1.state = candidate.state) ∧
        received.2.1.blockchain = candidate.blockchain ∧ received.2.1.state = candidate.state :=
  canonicalCandidate_atGenesis.paths_agree now file blocks

/-- The replay of the wallet side is the one of a candidate. -/
theorem TransactionSubmission.loadReplayedState_eq_ok {clock : Nat → SystemTime} {blocks : List Block}
    {state : State} {economy : Economy} :
    loadReplayedState clock (.blocks (canonicalGenesis :: blocks)) = .ok (state, economy) ↔
      ∃ candidate, canonicalCandidate.applyBlocksToSyncCandidate clock blocks = .ok candidate ∧
        candidate.state = state ∧ candidate.blockchain.economy = economy := by
  have loaded : Storage.loadBlockchainFrom (.blocks (canonicalGenesis :: blocks)) =
      .ok (some (canonicalGenesis :: blocks)) := rfl
  have first : canonical.blockchain.chain.head? = some canonicalGenesis := rfl
  simp only [loadReplayedState, loaded, canonicalBootstrap_eq, first, bind_eq_ok, okOr_eq_ok, rejectIf_eq_ok,
    pure_eq_ok, exists_const, List.head?_cons, List.tail_cons, Except.ok.injEq, Option.some.injEq, exists_eq_left',
    Prod.mk.injEq]
  constructor
  · rintro ⟨_, _, candidate, run, same⟩
    exact ⟨candidate, run, same⟩
  · rintro ⟨candidate, run, same⟩
    exact ⟨not_not.mpr rfl, not_not.mpr rfl, candidate, run, same⟩

end

open Fixture in
/-- The example node is at its genesis, and on all three paths it takes the first block: the recipient is paid. -/
theorem Fixture.first_block_replays :
    let synchronized := node.synchronizeChain (fun _ => now) (.ok ()) .missing [genesis, firstBlock]
    let received := node.receiveBlocks now .missing [firstBlock]
    ∃ candidate, node.applyBlocksToSyncCandidate (fun _ => now) [firstBlock] = .ok candidate ∧
      candidate.blockchain.chain = [genesis, firstBlock] ∧
      (synchronized.1 = .ok () ∧ synchronized.2.1.state = candidate.state) ∧
      (received.1 = true ∧ received.2.1.state = candidate.state) ∧
      node.state.balanceOf (hexEncode recipientAddress.val) = 0 ∧
      candidate.state.balanceOf (hexEncode recipientAddress.val) = 1000000 := by
  dsimp only
  have rooted : Rooted genesis genesis :=
    ⟨by decide +kernel, by decide +kernel, by decide +kernel, by decide +kernel⟩
  have atGenesis : node.AtGenesis genesis :=
    ⟨rooted, by decide +kernel, by decide +kernel, by decide +kernel, by decide +kernel⟩
  obtain ⟨finishes, receives, agree⟩ := atGenesis.paths_agree now .missing [firstBlock]
  have all : (node.receiveBlocks now .missing [firstBlock]).1 = true := by decide +kernel
  have paid : (node.receiveBlocks now .missing [firstBlock]).2.1.state.balanceOf
      (hexEncode recipientAddress.val) = 1000000 := by decide +kernel
  obtain ⟨candidate, applied⟩ := receives.mpr all
  obtain ⟨chain, ⟨_, synced⟩, _, same⟩ := agree candidate applied
  refine ⟨candidate, applied, chain, ⟨finishes.mpr ⟨candidate, applied⟩, synced⟩, ⟨all, same⟩, by decide +kernel, ?_⟩
  rw [← same]
  exact paid

end Kybernetes
