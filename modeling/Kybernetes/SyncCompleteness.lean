import Kybernetes.HonestPeer
import Kybernetes.SyncSafety

namespace Kybernetes

open Bootstrap
open Process (canonicalCandidate)

section

variable [Crypto] {server : NodeRuntime} {node : Node} {file : ChainFile} {env : Environment}

/-- A node and a server, each with a valid chain over the canonical genesis. -/
structure SyncPeers (node : Node) (server : NodeRuntime) : Prop where
  consensus : node.consensus = canonicalConsensus
  own : Descends (fun _ => True) node.ledger
  served : Descends (fun _ => True) server.node.ledger
  ownValid : node.blockchain.isValid = true
  servedValid : server.node.blockchain.isValid = true
  free : CollisionFree
    (hashedData (canonicalGenesis :: (node.blockchain.chain ++ server.node.blockchain.chain)))

namespace SyncPeers

variable {whole : Node} {path : SyncPath}

/-- A candidate with the whole chain is adopted. -/
theorem adopt_done (peers : SyncPeers node server)
    (longer : node.blockchain.chain.length < server.node.blockchain.chain.length)
    (track : OnTrack server.node.blockchain.chain whole server.node.blockchain.chain.length)
    (written : env.answer = .ok ()) :
    honestStep server (.adopt path node.blockchain.chain.length whole, node, file) env =
      (.finished (.ok ()), node.adopting whole, .blocks whole.blockchain.chain) := by
  obtain ⟨localGenesis, first, localRooted⟩ := peers.own.exists_genesis
  obtain ⟨remoteGenesis, first', rooted⟩ := peers.served.exists_genesis
  have heads : whole.blockchain.chain.head?.map Block.hash = some remoteGenesis.hash := by
    rw [← List.head?_map, track.hashes, List.take_length, List.head?_map]
    exact congrArg (Option.map Block.hash) first'
  obtain ⟨genesis, head, same⟩ := Option.map_eq_some_iff.mp heads
  have judged : node.judgeSyncCandidate whole.blockchain = .ok true := by
    refine Node.judgeSyncCandidate_eq_true.mpr ⟨?_, localGenesis, genesis, first, head, ?_⟩
    · rw [track.length]
      exact longer
    · rw [same, rooted.same, localRooted.same]
  have nonempty : whole.blockchain.chain ≠ [] := List.ne_nil_of_mem (List.mem_of_mem_head? head)
  have adopted : node.adoptValidatedSyncCandidate env.answer file whole.blockchain whole.state =
      (.ok (), node.adopting whole, .blocks whole.blockchain.chain) := by
    unfold Node.adoptValidatedSyncCandidate
    rw [judged]
    dsimp only
    rw [written, saveBlockchainTo_ok nonempty]
    rfl
  rw [honestStep_lock rfl]
  unfold SyncStage.onLock
  dsimp only
  rw [if_neg (not_not.mpr rfl), adopted]

/-- The full-chain path starts from the canonical genesis. -/
theorem beginReplace_ok (peers : SyncPeers node server) (permits : env.Permits server.node.blockchain.chain) :
    ∃ candidate position, OnTrack server.node.blockchain.chain candidate position ∧
      SyncStage.beginReplace env.clock node (.served server.node.blockchain.chain 0) =
        .ok (.continueCandidate .fullChain (UInt64.ofNat server.node.blockchain.chain.length)
          (UInt64.ofNat position) node.blockchain.chain.length candidate) := by
  have serves := peers.served.serves
  obtain ⟨remoteGenesis, first, rooted⟩ := peers.served.exists_genesis
  obtain ⟨rest, shape, run⟩ := peers.served.replays peers.servedValid (peers.free.mono
    (hashedData_mono (List.cons_subset_cons _ (List.subset_append_right _ _)))) permits.passes
  simp only [Node.ledger] at first shape
  have fresh : OnTrack server.node.blockchain.chain canonicalCandidate 1 := by
    refine ⟨rfl, by rw [shape]; simp, by rw [shape]; rfl, env.clock, server.node.ledger, ?_⟩
    rw [shape]
    exact run
  have next : ((server.node.blockchain.chain.take maxSyncBlocksPerMessage).drop 1) <+:
      server.node.blockchain.chain.drop 1 := (List.take_prefix _ _).drop 1
  obtain ⟨candidate, applied, track⟩ := fresh.apply permits.passes next
  refine ⟨candidate, _, track, ?_⟩
  have blocks : (ChainChunk.served server.node.blockchain.chain 0).blocks =
      server.node.blockchain.chain.take maxSyncBlocksPerMessage := rfl
  simp only [SyncStage.beginReplace, canonicalBootstrap_eq, bind_eq_ok, rejectIf_eq_ok, okOr_eq_ok, pure_eq_ok,
    exists_const, Except.ok.injEq, exists_eq_left', blocks]
  refine ⟨canonicalGenesis, rfl, remoteGenesis, ?_, ?_, candidate, applied, _, ?_, rfl⟩
  · rw [List.head?_take, if_neg (by decide)]
    exact first
  · exact not_or.mpr ⟨not_not.mpr rooted.same, not_not.mpr rooted.hash⟩
  · rw [track.length]
    exact serves.u64TryFrom track.within

/-- The common-tip path starts from the chain of the node. -/
theorem beginExtend_ok (peers : SyncPeers node server) (permits : env.Permits server.node.blockchain.chain)
    (longer : node.blockchain.chain.length < server.node.blockchain.chain.length)
    (tips : node.blockchain.chain.getLast?.map Block.hash =
      (server.node.blockchain.chain.take node.blockchain.chain.length).getLast?.map Block.hash)
    {suffix : List Block} (next : suffix <+: server.node.blockchain.chain.drop node.blockchain.chain.length) :
    ∃ candidate position, OnTrack server.node.blockchain.chain candidate position ∧
      SyncStage.beginExtend env.clock node (.served server.node.blockchain.chain 0)
          (UInt64.ofNat node.blockchain.chain.length) suffix =
        .ok (.continueCandidate .commonTip (UInt64.ofNat server.node.blockchain.chain.length)
          (UInt64.ofNat position) node.blockchain.chain.length candidate) := by
  have serves := peers.served.serves
  obtain ⟨hashes, after, run⟩ := peers.own.continues peers.served peers.ownValid peers.servedValid peers.free
    permits.passes tips
  have snapshot : OnTrack server.node.blockchain.chain node.syncCandidateSnapshot node.blockchain.chain.length := by
    refine ⟨peers.consensus, longer.le, hashes, env.clock, after, ?_⟩
    exact (Node.rebuildChain_congr peers.consensus _ _ _ _).trans run
  obtain ⟨candidate, applied, track⟩ := snapshot.apply permits.passes next
  refine ⟨candidate, _, track, ?_⟩
  simp only [SyncStage.beginExtend, bind_eq_ok, rejectIf_eq_ok, okOr_eq_ok, pure_eq_ok, exists_const]
  refine ⟨candidate, applied, UInt64.ofNat (node.blockchain.chain.length + suffix.length), ?_, ?_, rfl⟩
  · rw [track.length]
    exact serves.u64TryFrom track.within
  · rw [UInt64.lt_iff_toNat_lt, serves.toNat_ofNat track.within, serves.toNat_ofNat longer.le]
    omega

end SyncPeers

/-- How a synchronization with a server of a chain ends: by the chain of the
server if it is longer, and otherwise with the node as it was. -/
structure Synchronized (node : Node) (file : ChainFile) (remote : List Block) (result : Result Unit) (node' : Node)
    (file' : ChainFile) : Prop where
  longer : node.blockchain.chain.length < remote.length →
    result = .ok () ∧ node'.blockchain.chain.map Block.hash = remote.map Block.hash ∧
      file' = .blocks node'.blockchain.chain
  shorter : remote.length < node.blockchain.chain.length → result = .ok () ∧ node' = node ∧ file' = file
  equalTips : remote.length = node.blockchain.chain.length →
    remote.getLast?.map Block.hash = node.blockchain.chain.getLast?.map Block.hash →
      result = .ok () ∧ node' = node ∧ file' = file
  fork : remote.length = node.blockchain.chain.length →
    remote.getLast?.map Block.hash ≠ node.blockchain.chain.getLast?.map Block.hash →
      result = .error (.error "Different remote fork with equal length was rejected") ∧ node' = node ∧ file' = file

/-- The synchronization is over, and ended as it should. -/
def SyncConfig.Ends (node : Node) (file : ChainFile) (remote : List Block) (config : SyncConfig) : Prop :=
  ∃ result node' file', config = (.finished result, node', file') ∧ Synchronized node file remote result node' file'

/-- Nothing keeps a synchronization from its end. -/
abbrev SyncStage.Completes (server : NodeRuntime) (node : Node) (file : ChainFile) (stage : SyncStage) : Prop :=
  Inevitable (honestStep server) (·.Permits server.node.blockchain.chain)
    (SyncConfig.Ends node file server.node.blockchain.chain) (stage, node, file)

namespace SyncPeers

variable {candidate : Node} {path : SyncPath} {position : Nat}

theorem candidate_completes (peers : SyncPeers node server)
    (longer : node.blockchain.chain.length < server.node.blockchain.chain.length)
    (track : OnTrack server.node.blockchain.chain candidate position) (path : SyncPath) (file : ChainFile) :
    SyncStage.Completes server node file (.continueCandidate path (UInt64.ofNat server.node.blockchain.chain.length)
      (UInt64.ofNat position) node.blockchain.chain.length candidate) := by
  refine (continueCandidate_inevitable peers.served.serves track path _ node file).trans ?_
  rintro config ⟨whole, all, rfl⟩
  refine .next fun env permits => ?_
  rw [peers.adopt_done longer all permits.written]
  have hashes := all.hashes
  rw [List.take_length] at hashes
  refine .here ⟨_, _, _, rfl, fun _ => ⟨rfl, hashes, rfl⟩, fun less => ?_, fun same => ?_, fun same => ?_⟩
  · omega
  · omega
  · omega

theorem extend_completes (peers : SyncPeers node server)
    (longer : node.blockchain.chain.length < server.node.blockchain.chain.length)
    (tips : node.blockchain.chain.getLast?.map Block.hash =
      (server.node.blockchain.chain.take node.blockchain.chain.length).getLast?.map Block.hash)
    {suffix : List Block} (next : suffix <+: server.node.blockchain.chain.drop node.blockchain.chain.length)
    (file : ChainFile) :
    SyncStage.Completes server node file (.extendFromCommonTip (.served server.node.blockchain.chain 0)
      (UInt64.ofNat node.blockchain.chain.length) suffix) := by
  refine .next fun env permits => ?_
  obtain ⟨candidate, position, track, begun⟩ := peers.beginExtend_ok permits longer tips next
  rw [honestStep_lock rfl]
  simp only [SyncStage.onLock, begun]
  exact peers.candidate_completes longer track .commonTip file

theorem replace_completes (peers : SyncPeers node server)
    (longer : node.blockchain.chain.length < server.node.blockchain.chain.length) (file : ChainFile) :
    SyncStage.Completes server node file
      (.replaceFromFullChainStream (.served server.node.blockchain.chain 0)) := by
  refine .next fun env permits => ?_
  obtain ⟨candidate, position, track, begun⟩ := peers.beginReplace_ok permits
  rw [honestStep_lock rfl]
  simp only [SyncStage.onLock, begun]
  exact peers.candidate_completes longer track .fullChain file

/-- Whether the block of the server at the height of the local tip is that tip
or another, the synchronization gets to its end. -/
theorem compareAnchor_completes (peers : SyncPeers node server)
    (longer : node.blockchain.chain.length < server.node.blockchain.chain.length) {tip : Block}
    (last : node.blockchain.chain.getLast? = some tip) {anchor start : Nat}
    (height : node.blockchain.chain.length = anchor + 1) (before : start ≤ anchor)
    (within : anchor < start + maxSyncBlocksPerMessage) (file : ChainFile) :
    SyncStage.Completes server node file (.ofResult (SyncStage.compareAnchor (.served server.node.blockchain.chain 0)
      (UInt64.ofNat node.blockchain.chain.length) tip.hash (UInt64.ofNat anchor) (UInt64.ofNat start)
      ((server.node.blockchain.chain.drop start).take maxSyncBlocksPerMessage))) := by
  obtain ⟨remoteAnchor, found, compared⟩ := compareAnchor_served peers.served.serves
    (UInt64.ofNat node.blockchain.chain.length) tip.hash (by omega) before within
  rw [compared]
  by_cases same : remoteAnchor.hash = tip.hash
  · have tips : node.blockchain.chain.getLast?.map Block.hash =
        (server.node.blockchain.chain.take node.blockchain.chain.length).getLast?.map Block.hash := by
      rw [last, height, List.getLast?_take, if_neg (by omega), Nat.add_sub_cancel, found]
      exact congrArg some same.symm
    have next := (List.take_prefix maxSyncBlocksPerMessage (server.node.blockchain.chain.drop start)).drop
      (anchor - start + 1)
    rw [List.drop_drop, show start + (anchor - start + 1) = node.blockchain.chain.length by omega] at next
    rw [if_pos same]
    exact peers.extend_completes longer tips next file
  · rw [if_neg same]
    exact peers.replace_completes longer file

/-- A chain of equal length with the same tip is found valid. -/
theorem verifyEqualChain_ok (peers : SyncPeers node server)
    (equal : server.node.blockchain.chain.length = node.blockchain.chain.length)
    (tips : server.node.blockchain.chain.getLast?.map Block.hash = node.blockchain.chain.getLast?.map Block.hash)
    (file : ChainFile) :
    node.verifyEqualChain env.clock env.answer file server.node.blockchain.chain = (.ok (), node, file) := by
  obtain ⟨localGenesis, first, localRooted⟩ := peers.own.exists_genesis
  obtain ⟨remoteGenesis, first', rooted⟩ := peers.served.exists_genesis
  simp only [Node.ledger] at first first'
  obtain ⟨localTip, last⟩ : ∃ tip, node.blockchain.chain.getLast? = some tip :=
    ⟨_, List.getLast?_eq_some_getLast (List.ne_nil_of_mem (List.mem_of_mem_head? first))⟩
  rw [last] at tips
  obtain ⟨remoteTip, last', same⟩ := Option.map_eq_some_iff.mp tips
  have judged : node.judgeChain env.clock server.node.blockchain.chain = .ok none := by
    refine Node.judgeChain_eq_none.mpr ⟨List.ne_nil_of_mem (List.mem_of_mem_head? first'), equal,
      Node.checkEqualLengthChain_eq_ok.mpr ⟨localTip, remoteTip, localGenesis, remoteGenesis, last, last', same,
        peers.servedValid, first, first', ?_⟩⟩
    rw [rooted.same, localRooted.same]
  unfold Node.verifyEqualChain Node.synchronizeChain
  rw [if_neg (not_not.mpr equal), judged]

theorem equalLength_completes (peers : SyncPeers node server)
    (equal : server.node.blockchain.chain.length = node.blockchain.chain.length) {tip : Block}
    (last : node.blockchain.chain.getLast? = some tip) (position : Nat) (file : ChainFile) :
    SyncStage.Completes server node file (.ofResult (SyncStage.continueRemoteChain
      (UInt64.ofNat server.node.blockchain.chain.length) tip.hash
        (server.node.blockchain.chain.take position))) := by
  have serves := peers.served.serves
  refine (continueRemoteChain_inevitable serves tip.hash node file position).trans ?_
  rintro config rfl
  have positive : 0 < server.node.blockchain.chain.length := peers.served.length_pos
  obtain ⟨remoteTip, last'⟩ : ∃ tip, server.node.blockchain.chain.getLast? = some tip :=
    ⟨_, List.getLast?_eq_some_getLast (List.ne_nil_of_length_pos positive)⟩
  have compared : SyncStage.continueRemoteChain (UInt64.ofNat server.node.blockchain.chain.length) tip.hash
      server.node.blockchain.chain = (do
        rejectIf (remoteTip.hash ≠ tip.hash) "Different remote fork with equal length was rejected"
        return .verifyEqualChain server.node.blockchain.chain) := by
    simp only [SyncStage.continueRemoteChain, serves.u64TryFrom (Nat.le_refl _), last', okOr]
    exact if_neg (UInt64.lt_irrefl _)
  rw [compared]
  by_cases same : remoteTip.hash = tip.hash
  · have tips : server.node.blockchain.chain.getLast?.map Block.hash =
        node.blockchain.chain.getLast?.map Block.hash := by
      rw [last, last', Option.map_some, Option.map_some, same]
    unfold rejectIf
    rw [if_neg (not_not.mpr same)]
    refine .next fun env permits => ?_
    dsimp only [SyncStage.ofResult, Bind.bind, Except.bind, Pure.pure, Except.pure]
    rw [honestStep_lock rfl]
    simp only [SyncStage.onLock, peers.verifyEqualChain_ok equal tips]
    refine .here ⟨_, _, _, rfl, fun less => ?_, fun less => ?_, fun _ _ => ⟨rfl, rfl, rfl⟩, fun _ differ => ?_⟩
    · omega
    · omega
    · exact absurd tips differ
  · have differ : server.node.blockchain.chain.getLast?.map Block.hash ≠
        node.blockchain.chain.getLast?.map Block.hash := by
      rw [last, last', Option.map_some, Option.map_some]
      exact fun tips => same (Option.some.inj tips)
    unfold rejectIf
    rw [if_pos same]
    refine .here ⟨_, _, _, rfl, fun less => ?_, fun less => ?_, fun _ tips => ?_, fun _ _ => ⟨rfl, rfl, rfl⟩⟩
    · omega
    · omega
    · exact absurd tips differ

/-- From a longer chain of the server on: the anchor is in the first chunk, or
in one that is requested for it. -/
theorem anchor_completes (peers : SyncPeers node server)
    (longer : node.blockchain.chain.length < server.node.blockchain.chain.length) {tip : Block}
    (last : node.blockchain.chain.getLast? = some tip) (file : ChainFile) :
    SyncStage.Completes server node file (.ofResult do
      let anchorIndex ← okOr (checkedSub (UInt64.ofNat node.blockchain.chain.length) 1) "Local blockchain is empty"
      if anchorIndex < UInt64.ofNat (server.node.blockchain.chain.take maxSyncBlocksPerMessage).length then
        SyncStage.compareAnchor (.served server.node.blockchain.chain 0) (UInt64.ofNat node.blockchain.chain.length)
          tip.hash anchorIndex 0 (server.node.blockchain.chain.take maxSyncBlocksPerMessage)
      else
        return .requestAnchor (.served server.node.blockchain.chain 0) (UInt64.ofNat node.blockchain.chain.length)
          tip.hash anchorIndex) := by
  have serves := peers.served.serves
  obtain ⟨anchor, height⟩ : ∃ anchor, node.blockchain.chain.length = anchor + 1 := by
    have positive : 0 < node.blockchain.chain.length := peers.own.length_pos
    exact ⟨node.blockchain.chain.length - 1, by omega⟩
  have index : checkedSub (UInt64.ofNat node.blockchain.chain.length) 1 = some (UInt64.ofNat anchor) := by
    rw [checkedSub_eq_some, serves.toNat_ofNat longer.le, serves.toNat_ofNat (by omega), height]
    exact Nat.add_comm 1 anchor
  have count : (server.node.blockchain.chain.take maxSyncBlocksPerMessage).length =
      min maxSyncBlocksPerMessage server.node.blockchain.chain.length := List.length_take
  have order : UInt64.ofNat anchor < UInt64.ofNat (server.node.blockchain.chain.take maxSyncBlocksPerMessage).length ↔
      anchor < maxSyncBlocksPerMessage := by
    rw [UInt64.lt_iff_toNat_lt, serves.toNat_ofNat (by omega), serves.toNat_ofNat (by omega), count]
    omega
  rw [index]
  dsimp only [okOr, Bind.bind, Except.bind]
  by_cases inside : anchor < maxSyncBlocksPerMessage
  · rw [if_pos (order.mpr inside)]
    exact peers.compareAnchor_completes longer last height (Nat.zero_le _) (by omega) file
  · rw [if_neg fun less => inside (order.mp less)]
    refine .next fun env permits => ?_
    have room : anchor < anchor + maxSyncBlocksPerMessage := by
      unfold maxSyncBlocksPerMessage
      omega
    have compared := peers.compareAnchor_completes longer last height (Nat.le_refl _) room file
    have replied : honestStep server (.requestAnchor (.served server.node.blockchain.chain 0)
        (UInt64.ofNat node.blockchain.chain.length) tip.hash (UInt64.ofNat anchor), node, file) env =
        (.ofResult (SyncStage.compareAnchor (.served server.node.blockchain.chain 0)
          (UInt64.ofNat node.blockchain.chain.length) tip.hash (UInt64.ofNat anchor) (UInt64.ofNat anchor)
          ((server.node.blockchain.chain.drop anchor).take maxSyncBlocksPerMessage)), node, file) := by
      rw [honestStep_reply rfl]
      unfold SyncStage.onReply
      dsimp only
      rw [serves.chunk (by omega)]
      unfold ChainChunk.served rejectIf
      dsimp only [Bind.bind, Except.bind]
      rw [if_neg (UInt64.lt_irrefl _)]
    rw [SyncStage.Completes, ← replied] at compared
    exact compared

/-- The synchronization gets to its end from the first chunk on. -/
theorem readTip_completes (peers : SyncPeers node server) (file : ChainFile) :
    SyncStage.Completes server node file (.ofResult (SyncStage.readTip node
      (.served server.node.blockchain.chain 0))) := by
  obtain ⟨localGenesis, first, localRooted⟩ := peers.own.exists_genesis
  obtain ⟨remoteGenesis, first', rooted⟩ := peers.served.exists_genesis
  simp only [Node.ledger] at first first'
  obtain ⟨tip, last⟩ : ∃ tip, node.blockchain.chain.getLast? = some tip :=
    ⟨_, List.getLast?_eq_some_getLast (List.ne_nil_of_mem (List.mem_of_mem_head? first))⟩
  have ownLength : node.blockchain.chain.length ≤ 10 ^ 7 := peers.own.length_le
  have servedLength : server.node.blockchain.chain.length ≤ 10 ^ 7 := peers.served.length_le
  have own : u64TryFrom node.blockchain.chain.length = some (UInt64.ofNat node.blockchain.chain.length) :=
    if_pos (by omega)
  have blocks : (ChainChunk.served server.node.blockchain.chain 0).blocks =
      server.node.blockchain.chain.take maxSyncBlocksPerMessage := rfl
  have head : (ChainChunk.served server.node.blockchain.chain 0).blocks.head? = some remoteGenesis := by
    rw [blocks, List.head?_take, if_neg (by decide)]
    exact first'
  have same : ¬ (remoteGenesis.index ≠ 0 ∨ remoteGenesis.hash ≠ remoteGenesis.calculateHash ∨
      remoteGenesis.hash ≠ localGenesis.hash) := by
    simp only [rooted.index, ← rooted.hash, rooted.same, localRooted.same, ne_eq, not_true_eq_false, or_self,
      not_false_eq_true]
  have total : (ChainChunk.served server.node.blockchain.chain 0).totalBlocks =
      UInt64.ofNat server.node.blockchain.chain.length := rfl
  unfold SyncStage.readTip SyncStage.compareStatus
  rw [own, first, last]
  dsimp only [okOr, Bind.bind, Except.bind]
  rw [head]
  unfold rejectIf
  dsimp only
  rw [if_neg same, total, blocks]
  have lt := ofNat_lt_ofNat (show server.node.blockchain.chain.length < 2 ^ 64 by omega)
    (show node.blockchain.chain.length < 2 ^ 64 by omega)
  have eq := ofNat_inj_of_lt (show server.node.blockchain.chain.length < 2 ^ 64 by omega)
    (show node.blockchain.chain.length < 2 ^ 64 by omega)
  rcases Nat.lt_trichotomy server.node.blockchain.chain.length node.blockchain.chain.length with
    less | equal | longer
  · rw [if_pos (lt.mpr less)]
    refine .here ⟨_, _, _, rfl, fun more => ?_, fun _ => ⟨rfl, rfl, rfl⟩, fun equal => ?_, fun equal => ?_⟩
    · omega
    · omega
    · omega
  · rw [if_neg fun less => by have := lt.mp less; omega, if_pos (eq.mpr equal)]
    exact peers.equalLength_completes equal last _ file
  · rw [if_neg fun less => by have := lt.mp less; omega, if_neg fun equal => by have := eq.mp equal; omega]
    exact peers.anchor_completes longer last file

/-- The synchronization gets to its end. -/
theorem completes (peers : SyncPeers node server) (file : ChainFile) :
    SyncStage.Completes server node file .requestStatus := by
  refine .next fun env _ => ?_
  have answered := peers.served.serves.answers 0 (Nat.zero_le _)
  have replied : honestStep server (.requestStatus, node, file) env =
      (.readLocalTip (.served server.node.blockchain.chain 0), node, file) := by
    rw [honestStep_reply rfl]
    unfold SyncStage.onReply
    dsimp only
    rw [answered]
    rfl
  rw [replied]
  exact .next fun env _ => peers.readTip_completes file

end SyncPeers

/-- A synchronization with an honest peer ends as it should. The peer answers
every request from its chain, both chains are those of reachable nodes and
valid, and no block of the peer is too far in the future for the client. -/
theorem Machine.sync_with_honest_peer (file file' : ChainFile) (events events' : List MachineEvent)
    (client server : Process) (running : ((Machine.idle file).run events).process = some client)
    (running' : ((Machine.idle file').run events').process = some server)
    (valid : client.node.blockchain.isValid = true) (valid' : server.node.blockchain.isValid = true)
    (free : CollisionFree
      (hashedData (canonicalGenesis :: (client.node.blockchain.chain ++ server.node.blockchain.chain))))
    (stored : ChainFile) (envs : Nat → Environment) (permits : ∀ n, (envs n).Permits server.node.blockchain.chain) :
    ∃ n, SyncConfig.Ends client.node stored server.node.blockchain.chain
      (runFrom (honestStep server.runtime) (.requestStatus, client.node, stored) ((List.range n).map envs)) := by
  have canonical := (Machine.run_sound file events).canonical client running
  have canonical' := (Machine.run_sound file' events').canonical server running'
  have peers : SyncPeers client.node server.runtime :=
    ⟨canonical.consensus, canonical.descends, canonical'.descends, valid, valid', free⟩
  exact (peers.completes stored).exists_run envs permits

end

open Fixture in
/-- Two first starts meet the hypotheses. -/
theorem Fixture.first_starts_synchronize :
    let client := Process.start canonicalCandidate none
    ∃ n, SyncConfig.Ends client.node (.blocks [canonicalGenesis]) [canonicalGenesis]
      (runFrom (honestStep client.runtime) (.requestStatus, client.node, .blocks [canonicalGenesis])
        ((List.range n).map fun _ => env)) := by
  intro client
  have chain : client.node.blockchain.chain = [canonicalGenesis] := rfl
  have only : ∀ b ∈ canonicalGenesis :: (client.node.blockchain.chain ++ client.node.blockchain.chain),
      b = canonicalGenesis := by
    rw [chain]
    simp only [List.cons_append, List.nil_append, List.mem_cons, List.not_mem_nil, or_false, or_self, imp_self,
      implies_true]
  have free : CollisionFree
      (hashedData (canonicalGenesis :: (client.node.blockchain.chain ++ client.node.blockchain.chain))) :=
    .of_subsingleton (hashedData_subsingleton only)
  have permits : env.Permits client.node.blockchain.chain := by
    refine ⟨rfl, fun block member _ => ?_⟩
    rw [chain, List.mem_singleton] at member
    have passes : Blockchain.validateFutureTimestamp now canonicalGenesis.timestamp = .ok () := by decide +kernel
    rw [member]
    exact passes
  exact Machine.sync_with_honest_peer .missing .missing [.initializeAt keystore env] [.initializeAt keystore env]
    client client Fixture.running Fixture.running canonicalCandidate_isValid canonicalCandidate_isValid free _ _
    fun _ => permits

end Kybernetes
