import Kybernetes.Reachability

namespace Kybernetes

open Bootstrap
open Process (canonicalCandidate)

variable [Crypto]

/-- A property of ledgers that every block keeps which a node can add, and
that holds of the ledgers a node can begin a replay with. -/
structure LedgerInvariant (node : Node) (inv : Ledger → Prop) : Prop where
  block : ∀ {consensus : Consensus} {before after : Ledger} {block : Block} {normals : List Transaction},
    inv before → (block.Attested ∨ ∃ wallet, block.SealedBy wallet) →
      Admissible consensus before.1 block normals → before.settle block normals = .ok after → inv after
  canonical : inv (canonicalLedger canonicalGenesis)
  root : ∀ localGenesis genesis, Rooted localGenesis genesis → inv (node.genesisLedger genesis)

/-- The ledgers of a process with the property: its own and those of its
synchronizations in flight. -/
structure Process.Keeps (origin : Node) (inv : Ledger → Prop) (process : Process) : Prop where
  node : inv process.node.ledger
  candidates : ∀ syncTask ∈ process.syncTasks, inv syncTask.candidate.ledger
  admitted : process.node.Admitted
  genesisState : process.node.genesisState = origin.genesisState
  genesisEconomy : process.node.genesisEconomy = origin.genesisEconomy

theorem Grown.keeps {inv : Ledger → Prop} {origin : Node} {consensus : Consensus} {good : Block → Prop}
    {start ledger : Ledger} (invariant : LedgerInvariant origin inv)
    (accepted : ∀ block, good block → block.Attested) (grown : Grown consensus good start ledger)
    (before : inv start) : inv ledger := by
  induction grown with
  | start => exact before
  | block _ passed admissible settled ih =>
    exact invariant.block ih (Or.inl (accepted _ passed)) admissible settled

theorem Process.Keeps.perform {inv : Ledger → Prop} {origin : Node} (invariant : LedgerInvariant origin inv)
    {process : Process} (before : process.Keeps origin inv) (env : Environment) (operation : Operation)
    (file : ChainFile) : (process.perform env operation file).process.Keeps origin inv := by
  have advance := perform_advances env operation file before.admitted
  obtain ⟨_, genesisState, genesisEconomy⟩ := advance.fixed
  refine ⟨?_, fun syncTask member => ?_, advance.admitted' before.admitted, genesisState.trans before.genesisState,
    genesisEconomy.trans before.genesisEconomy⟩
  · generalize (process.perform env operation file).process.node = node',
      (process.perform env operation file).file = file',
      (process.perform env operation file).produced = produced at advance
    cases advance with
    | kept | admitted => exact before.node
    | received asked written attested future admissible settled =>
      exact invariant.block before.node (Or.inl attested) admissible settled
    | produced timely prepared =>
      exact invariant.block before.node (Or.inr ⟨_, prepared.sealed⟩) prepared.admissible prepared.settled
    | synchronized _ _ asked completes written judged longer first rooted grown chain =>
      refine grown.keeps invariant (fun _ signed => signed.1) ?_
      have root := invariant.root _ _ rooted
      unfold Node.genesisLedger at root ⊢
      rw [before.genesisState, before.genesisEconomy]
      exact root
    | adopted member => exact before.candidates _ member
  · rcases perform_tasks member with old | own | fresh | ⟨earlier, memberEarlier, block, step⟩
    · exact before.candidates syncTask old
    · rw [own]
      exact before.node
    · rw [fresh]
      exact invariant.canonical
    · obtain ⟨_, attested, _, normals, admissible, settled⟩ := Node.applyBlockToSyncCandidate_settles step
      exact invariant.block (before.candidates earlier memberEarlier) (Or.inl attested) admissible settled

/-- Such a property holds of every ledger a node comes to, from whatever
ledger with the property it was started. -/
theorem Process.run_keeps {inv : Ledger → Prop} {origin : Node} (invariant : LedgerInvariant origin inv)
    (start : inv origin.ledger) (pool : origin.mempool = Mempool.new) (validatorIdentity : Option Wallet)
    (file : ChainFile) (history : List (Environment × Operation)) :
    ((Process.start origin validatorIdentity).run file history).1.Keeps origin inv := by
  have initial : (Process.start origin validatorIdentity).Keeps origin inv := by
    refine ⟨start, ?_, ?_, rfl, rfl⟩
    · simp [Process.start]
    · simp [Process.start, Process.node, Node.Admitted, pool, Mempool.new]
  exact runFrom_invariant (fun config : Process × ChainFile => config.1.Keeps origin inv)
    (fun config event before => before.perform invariant event.1 event.2 config.2) initial history

end Kybernetes
