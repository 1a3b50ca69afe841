import Kybernetes.Operations

namespace Kybernetes

open Bootstrap
open Process (canonicalCandidate)

variable [Crypto]

namespace Node

theorem validateTransactionForMempool_genuine {transaction : Transaction} {state : State} {economy : Economy}
    {mempool : Mempool} (valid : validateTransactionForMempool transaction state economy mempool = .ok ()) :
    transaction.Genuine economy := by
  simp only [validateTransactionForMempool, bind_eq_ok] at valid
  obtain ⟨_, base, _⟩ := valid
  exact validateTransactionBase_eq_ok.mp base

theorem addTransaction_true {mempool mempool' : Mempool} {transaction : Transaction}
    (added : mempool.addTransaction transaction = (true, mempool')) :
    mempool' = { transactions := mempool.transactions ++ [transaction] } ∧
      transaction.id ∉ mempool.transactions.map Transaction.id := by
  unfold Mempool.addTransaction at added
  repeat' split at added
  · cases added
  · cases added
  · cases added
  · cases added
  · rename_i fresh _
    refine ⟨(congrArg Prod.snd added).symm, fun member => fresh ?_⟩
    obtain ⟨existing, held, same⟩ := List.mem_map.mp member
    exact List.any_eq_true.mpr ⟨existing, held, beq_iff_eq.mpr same⟩

omit [Crypto] in
theorem removeConfirmedTransactions_sub {mempool : Mempool} {block : Block} {transaction : Transaction}
    (member : transaction ∈ (removeConfirmedTransactions mempool block).transactions) :
    transaction ∈ mempool.transactions :=
  (List.mem_filter.mp member).1

/-- Admission survives a settled block: the pool shrinks and the policy stays. -/
theorem Admitted.settled {node : Node} {consensus : Consensus} {block : Block} {normals : List Transaction}
    {after : Ledger} (admitted : node.Admitted)
    (admissible : Admissible consensus node.blockchain block normals)
    (settled : node.ledger.settle block normals = .ok after) :
    Admitted { node with
      blockchain := after.1
      state := after.2
      mempool := removeConfirmedTransactions node.mempool block } := by
  intro transaction member
  have step : Settles node.ledger block normals after := admissible.settles settled
  obtain ⟨supply, liquidity, same⟩ := step.policy
  refine (admitted transaction (removeConfirmedTransactions_sub member)).of_policy ?_
  exact (congrArg Economy.policy same).trans (Economy.policy_with _ _ _)

end Node

section Advance

variable {env : Environment} {node node' : Node} {tasks : List SyncTask} {file file' : ChainFile}
  {operation : Operation} {block : Option Block}

theorem Advance.admitted' (advance : Advance env node tasks file operation node' file' block)
    (before : node.Admitted) : node'.Admitted := by
  cases advance with
  | kept => exact before
  | admitted asked valid added =>
    intro transaction member
    rw [(Node.addTransaction_true added).1] at member
    rcases List.mem_append.mp member with old | new
    · exact before transaction old
    · rw [List.mem_singleton.mp new]
      exact Node.validateTransactionForMempool_genuine valid
  | received asked written attested future admissible settled => exact before.settled admissible settled
  | produced timely prepared =>
    rw [prepared.cleaned]
    exact before.settled prepared.admissible prepared.settled
  | synchronized | adopted =>
    intro transaction member
    simp [Mempool.new] at member

/-- No operation changes what a node replays chains with. -/
theorem Advance.fixed (advance : Advance env node tasks file operation node' file' block) :
    node'.consensus = node.consensus ∧ node'.genesisState = node.genesisState ∧
      node'.genesisEconomy = node.genesisEconomy := by
  cases advance <;> exact ⟨rfl, rfl, rfl⟩

end Advance

/-- A node that runs on operations keeps its pool admitted, whatever ledger it
was started with. -/
theorem Process.run_admitted {process : Process} (start : process.node.Admitted) (file : ChainFile)
    (history : List (Environment × Operation)) : (process.run file history).1.node.Admitted :=
  runFrom_invariant (fun config : Process × ChainFile => config.1.node.Admitted)
    (fun _ _ before => (perform_advances _ _ _ before).admitted' before) start history

/-- The ledger that belongs to a first block with the canonical hash. -/
def canonicalLedger (genesis : Block) : Ledger :=
  ({ chain := [genesis], economy := canonicalEconomy }, canonicalState)

/-- The ledger grew by good blocks from the canonical one. Its first block can
be another one with the same hash. -/
def Descends (good : Block → Prop) (ledger : Ledger) : Prop :=
  ∃ genesis, Rooted canonicalGenesis genesis ∧ Grown canonicalConsensus good (canonicalLedger genesis) ledger

/-- What holds of a process started from `canonical_bootstrap`. -/
structure Process.Canonical (good : Block → Prop) (process : Process) : Prop where
  consensus : process.node.consensus = canonicalConsensus
  genesisState : process.node.genesisState = canonicalState
  genesisEconomy : process.node.genesisEconomy = canonicalEconomy
  descends : Descends good process.node.ledger
  admitted : process.node.Admitted
  candidates : ∀ syncTask ∈ process.syncTasks, syncTask.candidate.consensus = canonicalConsensus ∧
    Descends good syncTask.candidate.ledger

/-- Every block that can be accepted or produced in the environment is good. -/
def Environment.Yields (env : Environment) (good : Block → Prop) : Prop :=
  ∀ block, Timely env.clock block → (block.Attested ∨ ∃ wallet, block.SealedBy wallet) → good block

theorem Rooted.refl_canonical : Rooted canonicalGenesis canonicalGenesis :=
  ⟨rfl, rfl, rfl, rfl⟩

theorem Descends.start (good : Block → Prop) : Descends good (canonicalLedger canonicalGenesis) :=
  ⟨canonicalGenesis, .refl_canonical, .start⟩

theorem Descends.block {good : Block → Prop} {ledger after : Ledger} {block : Block}
    {normals : List Transaction} (descends : Descends good ledger) (accepted : good block)
    (admissible : Admissible canonicalConsensus ledger.1 block normals)
    (settled : ledger.settle block normals = .ok after) : Descends good after := by
  obtain ⟨genesis, rooted, grown⟩ := descends
  exact ⟨genesis, rooted, .block grown accepted admissible settled⟩

/-- The first block of a descending chain has the canonical hash. -/
theorem Descends.head {good : Block → Prop} {ledger : Ledger} {first : Block} (descends : Descends good ledger)
    (head : ledger.1.chain.head? = some first) : Rooted canonicalGenesis first := by
  obtain ⟨genesis, rooted, grown⟩ := descends
  obtain ⟨added, shape, _⟩ := grown.chain
  rw [shape] at head
  cases head
  exact rooted

theorem Process.Canonical.advance {good : Block → Prop} {process : Process} {env : Environment}
    {operation : Operation} {file file' : ChainFile} {node' : Node} {produced : Option Block}
    (before : process.Canonical good) (yields : env.Yields good)
    (advance : Advance env process.node process.syncTasks file operation node' file' produced) :
    Descends good node'.ledger := by
  cases advance with
  | kept | admitted => exact before.descends
  | received asked written attested future admissible settled =>
    rw [before.consensus] at admissible
    exact before.descends.block (yields _ ⟨0, future⟩ (Or.inl attested)) admissible settled
  | produced timely prepared =>
    have admissible := prepared.admissible
    rw [before.consensus] at admissible
    exact before.descends.block (yields _ timely (Or.inr ⟨_, prepared.sealed⟩)) admissible prepared.settled
  | synchronized _ _ asked completes written judged longer first rooted grown =>
    have canonical := before.descends.head first
    rw [before.consensus] at grown
    unfold Node.genesisLedger at grown
    rw [before.genesisState, before.genesisEconomy] at grown
    exact ⟨_, ⟨rooted.index, rooted.previousHash, rooted.hash, rooted.same.trans canonical.same⟩,
      grown.mono fun b ⟨attested, timely⟩ => yields b timely (Or.inl attested)⟩
  | adopted member => exact (before.candidates _ member).2

/-- A block taken by a candidate is an attested one that settles on the candidate's ledger. -/
theorem Node.applyBlockToSyncCandidate_settles {candidate after : Node} {now : SystemTime} {block : Block}
    (step : candidate.applyBlockToSyncCandidate now block = .ok after) :
    after.consensus = candidate.consensus ∧ block.Attested ∧
      Blockchain.validateFutureTimestamp now block.timestamp = .ok () ∧
      ∃ normals, Admissible candidate.consensus candidate.blockchain block normals ∧
        Ledger.settle candidate.ledger block normals = .ok after.ledger := by
  simp only [applyBlockToSyncCandidate, bind_eq_ok, pure_eq_ok] at step
  obtain ⟨ledger, accepted, rfl⟩ := step
  obtain ⟨attested, future, normals, admissible, settled⟩ := validateAndApplyBlock_eq_ok.mp accepted
  exact ⟨rfl, attested, future, normals, admissible, settled⟩

/-- A step of a canonical process keeps it canonical. -/
theorem Process.Canonical.perform {good : Block → Prop} {process : Process} {env : Environment}
    (before : process.Canonical good) (yields : env.Yields good) (operation : Operation) (file : ChainFile) :
    (process.perform env operation file).process.Canonical good := by
  have advance := perform_advances env operation file before.admitted
  obtain ⟨consensus, genesisState, genesisEconomy⟩ := advance.fixed
  refine ⟨consensus.trans before.consensus, genesisState.trans before.genesisState,
    genesisEconomy.trans before.genesisEconomy, before.advance yields advance,
    advance.admitted' before.admitted, fun syncTask member => ?_⟩
  rcases perform_tasks member with old | own | fresh | ⟨earlier, memberEarlier, block, step⟩
  · exact before.candidates syncTask old
  · rw [own]
    exact ⟨before.consensus, before.descends⟩
  · rw [fresh]
    exact ⟨rfl, .start good⟩
  · obtain ⟨same, descends⟩ := before.candidates earlier memberEarlier
    obtain ⟨consensus', attested, future, normals, admissible, settled⟩ :=
      Node.applyBlockToSyncCandidate_settles step
    rw [same] at admissible
    exact ⟨consensus'.trans same, descends.block (yields block ⟨0, future⟩ (Or.inl attested)) admissible settled⟩

theorem canonicalCandidate_admitted : canonicalCandidate.Admitted := by
  simp [canonicalCandidate, Node.new, Node.Admitted, Mempool.new]

/-- A node that has just started from `canonical_bootstrap`. -/
theorem Process.Canonical.start {process : Process} (good : Block → Prop)
    (node : process.node = canonicalCandidate) (tasks : process.syncTasks = []) : process.Canonical good := by
  constructor
  case admitted => rw [node]; exact canonicalCandidate_admitted
  case candidates => simp [tasks]
  case descends => rw [node]; exact .start good
  all_goals rw [node]; rfl

/-- Every run of a node started from `canonical_bootstrap`. -/
theorem Process.run_canonical (validatorIdentity : Option Wallet) (file : ChainFile)
    (history : List (Environment × Operation)) :
    ((Process.start canonicalCandidate validatorIdentity).run file history).1.Canonical fun _ => True :=
  runFrom_invariant (fun config : Process × ChainFile => config.1.Canonical fun _ => True)
    (fun config event before => before.perform (fun _ _ _ => trivial) event.2 config.2)
    (Process.Canonical.start _ rfl rfl) history

theorem Environment.yields_attested (lawful : SignaturesVerify) (env : Environment) :
    env.Yields Block.Attested := by
  rintro block _ (attested | ⟨wallet, sealed⟩)
  · exact attested
  · exact sealed.attested lawful

end Kybernetes
