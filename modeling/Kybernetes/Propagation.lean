import Kybernetes.Acceptance
import Kybernetes.Gossip
import Kybernetes.HonestPeer
import Kybernetes.Returns

namespace Kybernetes

section

variable [Crypto]

namespace GossipWorld

variable {ν : Type} [DecidableEq ν] {message : NetworkMessage} {Ready Done : NodeRuntime → Prop}
  {Other : NetworkMessage → Prop} {good : Environment → Prop}

/-- A node lists the address at which another one listens. -/
def Lists (locate : Text → Option ν) (world : GossipWorld ν) (node other : ν) : Prop :=
  ∃ peer ∈ (world.hosts node).network.peers, locate peer = some other

omit [Crypto] [DecidableEq ν] in
theorem entriesFor_length_le {α β : Type} (f : α → β) (entries : List (α × NetworkMessage)) :
    (entriesFor message f entries).length ≤ entries.length := by
  rw [entriesFor, List.length_map]
  exact List.length_filter_le _ _

omit [DecidableEq ν] in
/-- An address at which nobody listens is never without the message. -/
theorem work_le [Fintype ν] (locate : Text → Option ν) (world : GossipWorld ν) :
    (world.flood locate message Done).work maxNetworkPeers ≤
      130 * Fintype.card ν + 129 * world.broadcasts.length + world.deliveries.length := by
  have uninformed : ((world.flood locate message Done).informedᶜ).ncard ≤ Fintype.card ν := by
    have inside : (world.flood locate message Done).informedᶜ ⊆ Set.range some := by
      intro place missing
      cases place with
      | none => exact absurd none_mem_informed missing
      | some node => exact ⟨node, rfl⟩
    refine le_trans (Set.ncard_le_ncard inside) ?_
    rw [← Set.image_univ, Set.ncard_image_of_injective _ (Option.some_injective ν), Set.ncard_univ,
      Nat.card_eq_fintype_card]
  have telling : (world.flood locate message Done).telling.length ≤ world.broadcasts.length :=
    entriesFor_length_le some _
  have told : (world.flood locate message Done).told.length ≤ world.deliveries.length :=
    entriesFor_length_le locate _
  unfold Flood.work maxNetworkPeers
  omega

/-- A message that spreads: it reaches whoever is connected to a node that has it, and it does not
circulate for ever. -/
theorem Spreads.reaches (spreads : Spreads message Ready Done Other good) (locate : Text → Option ν)
    {world : GossipWorld ν} (spreading : Spreading message Ready Done Other world)
    (announced : ∀ node, Done (world.hosts node).runtime → (node, message) ∈ world.broadcasts)
    {events : List (GossipEvent ν)} (fine : ∀ event ∈ events, event.Meets good) :
    let final := runFrom (step locate) world events
    (∀ node, Ready (final.hosts node).runtime ∨ Done (final.hosts node).runtime) ∧
    ((∀ entry ∈ final.broadcasts, entry.2 ≠ message) → (∀ entry ∈ final.deliveries, entry.2 ≠ message) →
      ∀ node other, Done (world.hosts node).runtime → Relation.ReflTransGen (world.Lists locate) node other →
        Done (final.hosts other).runtime) ∧
    ∀ [Fintype ν], spent locate message world events ≤
      130 * Fintype.card ν + 129 * world.broadcasts.length + world.deliveries.length := by
  intro final
  have covered : (world.flood locate message Done).Covered (world.links locate) := by
    intro place informed
    cases place with
    | none => exact Or.inr fun neighbour linked => absurd linked (Set.notMem_empty _)
    | some node =>
      have waiting := announced node (some_mem_informed.mp informed)
      left
      refine List.mem_map.mpr ⟨(node, message), List.mem_filter.mpr ⟨waiting, decide_eq_true rfl⟩, rfl⟩
  obtain ⟨last, kept, reached, paid⟩ := spreading.run spreads (fun _ => subset_rfl) covered fine
  refine ⟨last.hosts, fun told heard node other done path => ?_, fun {_} => ?_⟩
  · have still : (final.flood locate message Done).telling = [] := entriesFor_eq_nil.mpr told
    have quiet : (final.flood locate message Done).told = [] := entriesFor_eq_nil.mpr heard
    have lifted : Relation.ReflTransGen (fun teller hearer => hearer ∈ world.links locate teller) (some node)
        (some other) := Relation.ReflTransGen.lift some (fun _ _ listed => listed) _ _ path
    exact some_mem_informed.mp (reached.reaches still quiet (kept (some_mem_informed.mpr done)) lifted)
  · have bound := paid inferInstance
    have start := @work_le _ ν message Done _ locate world
    omega

end GossipWorld

/-! ### Observers -/

/-- A node without a validator key produces nothing after a message. -/
theorem NodeRuntime.appendPendingBlockAction_observer {runtime : NodeRuntime}
    (observer : runtime.validatorIdentity = none) (env : Environment) (file : ChainFile) (outcome : ProcessOutcome) :
    runtime.appendPendingBlockAction env file outcome = (.ok outcome, runtime, file) := by
  have nothing : runtime.tryProducePendingBlock env.clock env.answer file = (.ok none, runtime, file) := by
    simp only [tryProducePendingBlock, observer]
  simp only [appendPendingBlockAction, nothing]

/-- What an observer does with a transaction. -/
theorem NodeRuntime.processTransaction_observer {runtime : NodeRuntime} (observer : runtime.validatorIdentity = none)
    (env : Environment) (file : ChainFile) (transaction : Transaction) :
    (∃ error, runtime.node.insertTransactionIntoMempool transaction = (.error (.error error), runtime.node) ∧
      runtime.processTransaction env file transaction false = (.ok { actions := [] }, runtime, file)) ∨
    ∃ node, runtime.node.insertTransactionIntoMempool transaction = (.ok (), node) ∧
      node = { runtime.node with
        mempool := { transactions := runtime.node.mempool.transactions ++ [transaction] } } ∧
      runtime.processTransaction env file transaction false =
        (.ok { actions := [.broadcast (.transaction transaction)] }, { runtime with node }, file) := by
  rcases runtime.node.insertTransactionIntoMempool_cases transaction with ⟨error, refused⟩ | ⟨_, _, added⟩
  · refine Or.inl ⟨error, refused, ?_⟩
    simp [processTransaction, refused]
  · refine Or.inr ⟨_, added, rfl, ?_⟩
    simp only [processTransaction, added]
    rw [appendPendingBlockAction_observer]
    · rfl
    · exact observer

/-- What a message that is neither a block nor a transaction does to an observer, and to any node. -/
theorem Host.process_reading (host : Host) (received produced : Environment) {message : NetworkMessage}
    (noBlock : ∀ block, message ≠ .block block) (noTransaction : ∀ transaction, message ≠ .transaction transaction) :
    (host.process received produced message false).2.runtime = host.runtime ∧
      broadcastsOf (host.process received produced message false).1 = [] := by
  have replying : ∀ (result : Result NetworkMessage), broadcastsOf (result.map fun message =>
      ({ actions := [.reply message] } : ProcessOutcome)) = [] := by
    intro result
    cases result <;> rfl
  cases message with
  | block block => exact absurd rfl (noBlock block)
  | transaction transaction => exact absurd rfl (noTransaction transaction)
  | chainChunkRequest | syncRequest | accountStateRequest => exact ⟨rfl, replying _⟩
  | _ => exact ⟨rfl, rfl⟩

/-! ### Blocks -/

/-- An observer, that is a node without a validator key, with a ledger. -/
def NodeRuntime.Holds (consensus : Consensus) (ledger : Ledger) (runtime : NodeRuntime) : Prop :=
  runtime.validatorIdentity = none ∧ runtime.node.consensus = consensus ∧ runtime.node.ledger = ledger

section Blocks

variable {consensus : Consensus} {base grown : Ledger} {block : Block} {normals : List Transaction}

/-- What is broadcast besides blocks leaves the ledger alone. -/
theorem NodeRuntime.Holds.process {host : Host} (holds : host.runtime.Holds consensus base)
    (received produced : Environment) {message : NetworkMessage} (noBlock : ∀ block, message ≠ .block block) :
    (host.process received produced message false).2.runtime.Holds consensus base ∧
      ∀ next ∈ broadcastsOf (host.process received produced message false).1, ∀ block, next ≠ .block block := by
  obtain ⟨observer, members, ledger⟩ := holds
  by_cases transfers : ∃ transaction, message = .transaction transaction
  · obtain ⟨transaction, rfl⟩ := transfers
    rcases NodeRuntime.processTransaction_observer observer produced host.file transaction with
      ⟨error, _, run⟩ | ⟨node, _, rfl, run⟩
    · simp only [Host.process, NodeRuntime.processMessage, run]
      exact ⟨⟨observer, members, ledger⟩, by simp [broadcastsOf, ProcessOutcome.broadcasts]⟩
    · simp only [Host.process, NodeRuntime.processMessage, run]
      exact ⟨⟨observer, members, ledger⟩, by simp [broadcastsOf, ProcessOutcome.broadcasts]⟩
  · obtain ⟨same, silent⟩ := host.process_reading received produced noBlock fun transaction is =>
      transfers ⟨transaction, is⟩
    rw [same, silent]
    exact ⟨⟨observer, members, ledger⟩, fun next none => absurd none List.not_mem_nil⟩

/-- A node with the ledger that the block extends takes the block and passes it on. -/
theorem NodeRuntime.Holds.hears (attested : block.Attested)
    (admissible : Admissible consensus base.1 block normals) (settled : base.settle block normals = .ok grown)
    (fresh : ∀ known ∈ base.1.chain, known.hash ≠ block.hash) {host : Host}
    (holds : host.runtime.Holds consensus base) {received : Environment} (permits : received.Permits [block])
    (produced : Environment) :
    (host.process received produced (.block block) false).2.runtime.Holds consensus grown ∧
      broadcastsOf (host.process received produced (.block block) false).1 = [.block block] := by
  obtain ⟨observer, members, ledger⟩ := holds
  obtain ⟨written, passes⟩ := permits
  have extended : grown.1.chain = base.1.chain ++ [block] := (admissible.settles settled).chain
  have chain : host.runtime.node.blockchain.chain = base.1.chain := congrArg (fun l => l.1.chain) ledger
  have unknown : (host.runtime.node.blockchain.chain.any fun known => known.hash == block.hash) = false := by
    rw [chain, List.any_eq_false]
    intro known member same
    exact fresh known member (beq_iff_eq.mp same)
  have valid : host.runtime.node.validateAndApplyBlock (received.clock 0) block host.runtime.node.blockchain
      host.runtime.node.state = .ok grown := by
    refine Node.validateAndApplyBlock_eq_ok.mpr ⟨attested, passes block List.mem_cons_self 0, normals, ?_, ?_⟩
    · rw [members, show host.runtime.node.blockchain = base.1 from congrArg Prod.fst ledger]
      exact admissible
    · rw [← settled, ← ledger]
      rfl
  have nonempty : grown.1.chain ≠ [] := by
    rw [extended]
    simp
  have run : host.runtime.node.receiveBlockMessage (received.clock 0) received.answer host.file block =
      (.ok true,
        { host.runtime.node with
          blockchain := grown.1
          state := grown.2
          mempool := Node.removeConfirmedTransactions host.runtime.node.mempool block },
        .blocks grown.1.chain) := by
    simp only [Node.receiveBlockMessage, unknown, Bool.false_eq_true, if_false, Node.receiveBlock, valid,
      Storage.saveBlockchainTo, nonempty, written]
  have longer : host.runtime.node.blockchain.chain.length < grown.1.chain.length := by
    rw [chain, extended, List.length_append, List.length_singleton]
    exact Nat.lt_succ_self _
  simp only [Host.process, NodeRuntime.processMessage, NodeRuntime.processBlock, run, longer, if_true]
  rw [NodeRuntime.appendPendingBlockAction_observer]
  · exact ⟨⟨observer, members, rfl⟩, rfl⟩
  · exact observer

/-- A node that has the block already keeps its ledger and says nothing. -/
theorem NodeRuntime.Holds.ignores (extended : grown.1.chain = base.1.chain ++ [block]) {host : Host}
    (holds : host.runtime.Holds consensus grown) (received produced : Environment) :
    (host.process received produced (.block block) false).2.runtime.Holds consensus grown ∧
      broadcastsOf (host.process received produced (.block block) false).1 = [] := by
  obtain ⟨observer, members, ledger⟩ := holds
  have chain : host.runtime.node.blockchain.chain = grown.1.chain := congrArg (fun l => l.1.chain) ledger
  have known : (host.runtime.node.blockchain.chain.any fun known => known.hash == block.hash) = true := by
    rw [chain, extended, List.any_append]
    simp
  have run : host.runtime.node.receiveBlockMessage (received.clock 0) received.answer host.file block =
      (.ok false, host.runtime.node, host.file) := by
    rw [Node.receiveBlockMessage, if_pos known]
  simp only [Host.process, NodeRuntime.processMessage, NodeRuntime.processBlock, run, lt_irrefl, if_false]
  exact ⟨⟨observer, members, ledger⟩, rfl⟩

theorem block_spreads (attested : block.Attested) (admissible : Admissible consensus base.1 block normals)
    (settled : base.settle block normals = .ok grown) (fresh : ∀ known ∈ base.1.chain, known.hash ≠ block.hash) :
    Spreads (.block block) (NodeRuntime.Holds consensus base) (NodeRuntime.Holds consensus grown)
      (fun message => ∀ block, message ≠ .block block) fun env => env.Permits [block] := by
  have extended : grown.1.chain = base.1.chain ++ [block] := (admissible.settles settled).chain
  refine ⟨?_, ?_, ?_, ?_, ?_, ?_, ?_⟩
  · intro host received produced holds permits
    exact holds.hears attested admissible settled fresh permits produced
  · intro host received produced holds
    exact holds.ignores extended received produced
  · intro host received produced other noBlock holds
    exact (holds.process received produced noBlock).1
  · intro host received produced other noBlock holds
    exact (holds.process received produced noBlock).1
  · intro host received produced other noBlock holds
    rcases holds with holds | holds
    · exact (holds.process received produced noBlock).2
    · exact (holds.process received produced noBlock).2
  · intro wrong
    exact wrong block rfl
  · intro runtime before after
    have same : base = grown := before.2.2.symm.trans after.2.2
    rw [← same] at extended
    have length := congrArg List.length extended
    rw [List.length_append, List.length_singleton] at length
    omega

open GossipWorld in
/-- A block that extends the ledger of all nodes reaches every node that is connected to one that has it. The
nodes hold no validator key and exchange blocks, transactions and whatever else in any order; the only block is
this one, each node that has it has still to broadcast it, and no node meets a clock or a disk that refuses it.
Then no node ever has a ledger other than the old or the new one, when nothing is on its way any more the new one
is everywhere along the peers, and the broadcasts and deliveries of the block come to an end. -/
theorem block_reaches {ν : Type} [DecidableEq ν] (attested : block.Attested)
    (admissible : Admissible consensus base.1 block normals) (settled : base.settle block normals = .ok grown)
    (fresh : ∀ known ∈ base.1.chain, known.hash ≠ block.hash) (locate : Text → Option ν) (world : GossipWorld ν)
    (holds : ∀ node, (world.hosts node).runtime.Holds consensus base ∨
      (world.hosts node).runtime.Holds consensus grown ∧ (node, .block block) ∈ world.broadcasts)
    (networks : ∀ node, (world.hosts node).network.WellFormed)
    (broadcasts : ∀ entry ∈ world.broadcasts, ∀ other, entry.2 = .block other → other = block)
    (deliveries : ∀ entry ∈ world.deliveries, ∀ other, entry.2 = .block other → other = block)
    (events : List (GossipEvent ν)) (fine : ∀ event ∈ events, event.Meets fun env => env.Permits [block]) :
    let final := runFrom (step locate) world events
    (∀ node, (final.hosts node).runtime.Holds consensus base ∨ (final.hosts node).runtime.Holds consensus grown) ∧
    ((∀ entry ∈ final.broadcasts, entry.2 ≠ .block block) → (∀ entry ∈ final.deliveries, entry.2 ≠ .block block) →
      ∀ node other, (world.hosts node).runtime.Holds consensus grown →
        Relation.ReflTransGen (world.Lists locate) node other →
        (final.hosts other).runtime.Holds consensus grown) ∧
    ∀ [Fintype ν], spent locate (.block block) world events ≤
      130 * Fintype.card ν + 129 * world.broadcasts.length + world.deliveries.length := by
  have spreads := block_spreads attested admissible settled fresh
  have only : ∀ message : NetworkMessage, (∀ other, message = .block other → other = block) →
      message = .block block ∨ ∀ other, message ≠ .block other := by
    intro message one
    by_cases is : ∃ other, message = .block other
    · obtain ⟨other, rfl⟩ := is
      exact Or.inl (congrArg NetworkMessage.block (one other rfl))
    · exact Or.inr fun other same => is ⟨other, same⟩
  refine Spreads.reaches spreads locate ⟨fun node => (holds node).imp_right And.left, networks,
    fun entry member => only _ (broadcasts entry member), fun entry member => only _ (deliveries entry member)⟩
    (fun node done => ?_) fine
  rcases holds node with old | new
  · exact absurd done (spreads.exclusive _ old)
  · exact new.2

end Blocks

/-! ### Transactions -/

/-- A node without a validator key that would admit the transaction. -/
def NodeRuntime.WouldAdmit (transaction : Transaction) (runtime : NodeRuntime) : Prop :=
  runtime.validatorIdentity = none ∧ (runtime.node.insertTransactionIntoMempool transaction).1 = .ok ()

/-- A node without a validator key that has the transaction in its pool. -/
def NodeRuntime.Pools (transaction : Transaction) (runtime : NodeRuntime) : Prop :=
  runtime.validatorIdentity = none ∧ transaction ∈ runtime.node.mempool.transactions

section Transactions

variable {transaction : Transaction}

theorem transaction_spreads : Spreads (.transaction transaction) (NodeRuntime.WouldAdmit transaction)
    (NodeRuntime.Pools transaction)
    (fun message => (∀ block, message ≠ .block block) ∧ ∀ transaction, message ≠ .transaction transaction)
    fun _ => True := by
  have kept : ∀ (host : Host) received produced other,
      (∀ block, other ≠ .block block) ∧ (∀ transaction, other ≠ .transaction transaction) →
      (host.process received produced other false).2.runtime = host.runtime ∧
        broadcastsOf (host.process received produced other false).1 = [] :=
    fun host received produced other reading => host.process_reading received produced reading.1 reading.2
  refine ⟨?_, ?_, ?_, ?_, ?_, ?_, ?_⟩
  · rintro host received produced ⟨observer, admitted⟩ _
    rcases NodeRuntime.processTransaction_observer observer produced host.file transaction with
      ⟨error, refused, _⟩ | ⟨node, _, rfl, run⟩
    · rw [refused] at admitted
      cases admitted
    · simp only [Host.process, NodeRuntime.processMessage, run]
      exact ⟨⟨observer, List.mem_append_right _ (List.mem_singleton_self _)⟩, rfl⟩
  · rintro host received produced ⟨observer, pooled⟩
    rcases NodeRuntime.processTransaction_observer observer produced host.file transaction with
      ⟨error, _, run⟩ | ⟨node, added, _, _⟩
    · simp only [Host.process, NodeRuntime.processMessage, run]
      exact ⟨⟨observer, pooled⟩, rfl⟩
    · rcases host.runtime.node.insertTransactionIntoMempool_cases transaction with ⟨error, refused⟩ | ⟨_, absent, _⟩
      · rw [refused] at added
        cases added
      · exact absurd (List.mem_map_of_mem pooled) absent
  · intro host received produced other reading ready
    rw [(kept host received produced other reading).1]
    exact ready
  · intro host received produced other reading pooled
    rw [(kept host received produced other reading).1]
    exact pooled
  · intro host received produced other reading _ next sent
    rw [(kept host received produced other reading).2] at sent
    cases sent
  · rintro ⟨_, noTransaction⟩
    exact noTransaction transaction rfl
  · rintro runtime ⟨_, admitted⟩ ⟨_, pooled⟩
    rcases runtime.node.insertTransactionIntoMempool_cases transaction with ⟨error, refused⟩ | ⟨_, absent, _⟩
    · rw [refused] at admitted
      cases admitted
    · exact absurd (List.mem_map_of_mem pooled) absent

open GossipWorld in
/-- A transaction that every node without it would admit reaches the pool of every node that is connected to one
that has it. No node holds a validator key, and no block and no other transaction is on its way at the start: so no
block is ever made. -/
theorem transaction_reaches {ν : Type} [DecidableEq ν] (locate : Text → Option ν) (world : GossipWorld ν)
    (holds : ∀ node, (world.hosts node).runtime.WouldAdmit transaction ∨
      (world.hosts node).runtime.Pools transaction ∧ (node, .transaction transaction) ∈ world.broadcasts)
    (networks : ∀ node, (world.hosts node).network.WellFormed)
    (broadcasts : ∀ entry ∈ world.broadcasts, entry.2 = .transaction transaction ∨
      (∀ block, entry.2 ≠ .block block) ∧ ∀ other, entry.2 ≠ .transaction other)
    (deliveries : ∀ entry ∈ world.deliveries, entry.2 = .transaction transaction ∨
      (∀ block, entry.2 ≠ .block block) ∧ ∀ other, entry.2 ≠ .transaction other)
    (events : List (GossipEvent ν)) :
    let final := runFrom (step locate) world events
    (∀ node, (final.hosts node).runtime.WouldAdmit transaction ∨ (final.hosts node).runtime.Pools transaction) ∧
    ((∀ entry ∈ final.broadcasts, entry.2 ≠ .transaction transaction) →
      (∀ entry ∈ final.deliveries, entry.2 ≠ .transaction transaction) →
      ∀ node other, (world.hosts node).runtime.Pools transaction →
        Relation.ReflTransGen (world.Lists locate) node other → (final.hosts other).runtime.Pools transaction) ∧
    ∀ [Fintype ν], spent locate (.transaction transaction) world events ≤
      130 * Fintype.card ν + 129 * world.broadcasts.length + world.deliveries.length := by
  have spreads := @transaction_spreads _ transaction
  refine Spreads.reaches spreads locate ⟨fun node => (holds node).imp_right And.left, networks, broadcasts, deliveries⟩
    (fun node done => ?_) fun event _ => ?_
  · rcases holds node with old | new
    · exact absurd done (spreads.exclusive _ old)
    · exact new.2
  · cases event <;> exact trivial

end Transactions

end

namespace Fixture

/-- The node that has taken the first block. -/
def advanced : Node :=
  (node.receiveBlock now (.ok ()) .missing firstBlock).2.1

def observing (node : Node) (peers : List Text) : Host where
  runtime := { node, validatorIdentity := none, validatorKeystoreLocked := false, chainSyncActive := false }
  network := { Network.new with peers }
  file := .missing

/-- A node with the first block, and one without it that the first knows. -/
def blockWorld : GossipWorld Bool where
  hosts informed := if informed then observing advanced [str "127.0.0.1:7001"] else observing node []
  broadcasts := [(true, .block firstBlock)]
  deliveries := []

/-- The second node as the sender of a payment that it has pooled and the first has not. -/
def paymentWorld : GossipWorld Bool where
  hosts informed := if informed then observing pending [str "127.0.0.1:7001"] else observing node []
  broadcasts := [(true, .transaction transfer)]
  deliveries := []

def locate (address : Text) : Option Bool :=
  if address = str "127.0.0.1:7001" then some false else none

/-- The broadcast, its arrival, and the broadcast of the node that was reached. -/
def rounds : List (GossipEvent Bool) :=
  [.broadcast 0, .deliver 0 env env, .broadcast 0]

theorem observing_wellFormed {node : Node} {peers : List Text} (listed : Network.PeersWellFormed peers) :
    (observing node peers).network.WellFormed :=
  ⟨listed, ⟨Nat.zero_le _, List.nodup_nil, List.nodup_nil, by simp [observing, Network.new]⟩, Nat.zero_le _,
    Nat.zero_le _⟩

theorem listed_peers : Network.PeersWellFormed [str "127.0.0.1:7001"] :=
  ⟨by decide, List.nodup_singleton _, fun address member => by
    rw [List.mem_singleton.mp member]
    exact ⟨by decide, by decide, by decide +kernel⟩⟩

theorem no_peers : Network.PeersWellFormed [] :=
  ⟨Nat.zero_le _, List.nodup_nil, fun _ member => absurd member List.not_mem_nil⟩

theorem advanced_ledger : node.validateAndApplyBlock now firstBlock node.blockchain node.state = .ok advanced.ledger := by
  have received := eq_of_first (x := node.receiveBlock now (.ok ()) .missing firstBlock) (a := .ok true)
    (by decide +kernel)
  obtain ⟨after, valid, same, _⟩ := Node.receiveBlock_true.mp received
  have ledger : advanced.ledger = after := by
    rw [advanced, same]
    rfl
  rw [ledger]
  exact valid

theorem env_permits : env.Permits [firstBlock] := by
  refine ⟨rfl, fun block member reading => ?_⟩
  rw [List.mem_singleton.mp member]
  change Blockchain.validateFutureTimestamp now firstBlock.timestamp = .ok ()
  decide +kernel

theorem rounds_meet {good : Environment → Prop} (fine : good env) : ∀ event ∈ rounds, event.Meets good := by
  intro event member
  simp only [rounds, List.mem_cons, List.not_mem_nil, or_false] at member
  rcases member with rfl | rfl | rfl
  · exact trivial
  · exact fine
  · exact trivial

theorem locate_second : locate (str "127.0.0.1:7001") = some false := by decide +kernel

theorem first_lists {world : GossipWorld Bool}
    (listed : (world.hosts true).network.peers = [str "127.0.0.1:7001"]) : world.Lists locate true false := by
  refine ⟨_, ?_, locate_second⟩
  rw [listed]
  exact List.mem_singleton_self _

theorem observing_holds {node : Node} (members : node.consensus = consensus) (peers : List Text) :
    (observing node peers).runtime.Holds consensus node.ledger :=
  ⟨rfl, members, rfl⟩

theorem observing_pools {node : Node} (pooled : transfer ∈ node.mempool.transactions) (peers : List Text) :
    (observing node peers).runtime.Pools transfer :=
  ⟨rfl, pooled⟩

theorem worlds_wellFormed {first second : Node} (informed : Bool) :
    (if informed then observing first [str "127.0.0.1:7001"] else observing second []).network.WellFormed := by
  cases informed with
  | false => exact observing_wellFormed no_peers
  | true => exact observing_wellFormed listed_peers

end Fixture

open GossipWorld in
open Fixture in
/-- The second node gets the first block. -/
theorem Fixture.block_arrives :
    ((runFrom (step locate) blockWorld rounds).hosts false).runtime.Holds consensus advanced.ledger := by
  obtain ⟨attested, _, normals, admissible, settled⟩ := Node.validateAndApplyBlock_eq_ok.mp advanced_ledger
  have members : advanced.consensus = consensus := by decide +kernel
  have start : ∀ node, (blockWorld.hosts node).runtime.Holds consensus Fixture.node.ledger ∨
      (blockWorld.hosts node).runtime.Holds consensus advanced.ledger ∧
        (node, .block firstBlock) ∈ blockWorld.broadcasts := by
    intro node
    cases node with
    | false => exact Or.inl (observing_holds rfl [])
    | true => exact Or.inr ⟨observing_holds members _, List.mem_singleton_self _⟩
  have only : ∀ entry ∈ blockWorld.broadcasts, ∀ other, entry.2 = .block other → other = firstBlock := by
    intro entry member other same
    have first : entry = (true, .block firstBlock) := List.mem_singleton.mp member
    rw [first] at same
    exact (NetworkMessage.block.inj same).symm
  have unknown : ∀ known ∈ Fixture.node.blockchain.chain, known.hash ≠ firstBlock.hash := by decide +kernel
  have quiet : (runFrom (step locate) blockWorld rounds).broadcasts = [] ∧
      (runFrom (step locate) blockWorld rounds).deliveries = [] := by decide +kernel
  have reached := (block_reaches attested admissible settled unknown locate blockWorld start
    (fun informed => worlds_wellFormed informed) only (fun entry none => absurd none List.not_mem_nil) rounds
    (rounds_meet env_permits)).2.1
  rw [quiet.1, quiet.2] at reached
  exact reached (fun _ none => absurd none List.not_mem_nil) (fun _ none => absurd none List.not_mem_nil) true false
    (observing_holds members _) (.single (first_lists rfl))

open GossipWorld in
open Fixture in
/-- The second node gets the payment that the first has pooled. -/
theorem Fixture.transfer_arrives :
    ((runFrom (step locate) paymentWorld rounds).hosts false).runtime.Pools transfer := by
  have pooled : transfer ∈ pending.mempool.transactions := by decide +kernel
  have admitted : (node.insertTransactionIntoMempool transfer).1 = .ok () := by decide +kernel
  have start : ∀ node, (paymentWorld.hosts node).runtime.WouldAdmit transfer ∨
      (paymentWorld.hosts node).runtime.Pools transfer ∧
        (node, .transaction transfer) ∈ paymentWorld.broadcasts := by
    intro node
    cases node with
    | false => exact Or.inl ⟨rfl, admitted⟩
    | true => exact Or.inr ⟨observing_pools pooled _, List.mem_singleton_self _⟩
  have only : ∀ entry ∈ paymentWorld.broadcasts, entry.2 = .transaction transfer ∨
      (∀ block, entry.2 ≠ .block block) ∧ ∀ other, entry.2 ≠ .transaction other := by
    intro entry member
    have first : entry = (true, .transaction transfer) := List.mem_singleton.mp member
    rw [first]
    exact Or.inl rfl
  have quiet : (runFrom (step locate) paymentWorld rounds).broadcasts = [] ∧
      (runFrom (step locate) paymentWorld rounds).deliveries = [] := by decide +kernel
  have reached := (transaction_reaches locate paymentWorld start (fun informed => worlds_wellFormed informed) only
    (fun entry none => absurd none List.not_mem_nil) rounds).2.1
  rw [quiet.1, quiet.2] at reached
  exact reached (fun _ none => absurd none List.not_mem_nil) (fun _ none => absurd none List.not_mem_nil) true false
    (observing_pools pooled _) (.single (first_lists rfl))

end Kybernetes
