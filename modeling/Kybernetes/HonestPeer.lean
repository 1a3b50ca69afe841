import Kybernetes.ChainReplay
import Kybernetes.Replies
import Kybernetes.SyncSession

namespace Kybernetes

open Bootstrap

section

variable [Crypto]

/-- The candidate has the first blocks of a chain, up to their signatures, and
can go on with the rest of it. -/
structure OnTrack (remote : List Block) (candidate : Node) (position : Nat) : Prop where
  consensus : candidate.consensus = canonicalConsensus
  within : position ≤ remote.length
  hashes : candidate.blockchain.chain.map Block.hash = (remote.take position).map Block.hash
  goesOn : ∃ clock after,
    candidate.rebuildChain clock candidate.ledger.1 candidate.ledger.2 (remote.drop position) = .ok after

namespace OnTrack

variable {remote : List Block} {candidate : Node} {position : Nat} {clock : Nat → SystemTime}

theorem length (track : OnTrack remote candidate position) : candidate.blockchain.chain.length = position := by
  have lengths := congrArg List.length track.hashes
  rw [List.length_map, List.length_map, List.length_take, Nat.min_eq_left track.within] at lengths
  exact lengths

/-- The next blocks of the chain apply, however many there are. -/
theorem apply (track : OnTrack remote candidate position)
    (passes : ∀ block ∈ remote, ∀ reading,
      Blockchain.validateFutureTimestamp (clock reading) block.timestamp = .ok ())
    {blocks : List Block} (next : blocks <+: remote.drop position) :
    ∃ after, candidate.applyBlocksToSyncCandidate clock blocks = .ok after ∧
      OnTrack remote after (position + blocks.length) := by
  obtain ⟨rest, next⟩ := next
  obtain ⟨clock', after, run⟩ := track.goesOn
  rw [← next] at run
  obtain ⟨middle, front, back⟩ := Node.rebuildChain_append_eq_ok.mp run
  have retimed : candidate.rebuildChain clock candidate.ledger.1 candidate.ledger.2 blocks = .ok middle := by
    refine Node.rebuildChain_reclock front fun block member reading => passes block ?_ reading
    have ahead : block ∈ remote.drop position := by rw [← next]; exact List.mem_append_left _ member
    exact List.mem_of_mem_drop ahead
  have room := congrArg List.length next
  rw [List.length_drop, List.length_append] at room
  have within := track.within
  refine ⟨candidate.onLedger middle blocks, Node.applyBlocksToSyncCandidate_eq_ok.mpr ⟨middle, retimed, rfl⟩,
    track.consensus, by omega, ?_, ?_⟩
  · have chain : middle.1.chain = candidate.blockchain.chain ++ blocks := (Node.rebuildChain_grown retimed).2
    have front : remote.take (position + blocks.length) = remote.take position ++ blocks := by
      rw [List.take_add, ← next, List.take_left]
    show middle.1.chain.map Block.hash = _
    rw [chain, front, List.map_append, List.map_append, track.hashes]
  · have back' : remote.drop (position + blocks.length) = rest := by
      rw [← List.drop_drop, ← next, List.drop_left]
    refine ⟨fun reading => clock' (reading + blocks.length), after, ?_⟩
    rw [back', Node.rebuildChain_onLedger]
    exact back

end OnTrack

/-- A synchronization on its own, with the node and its file. -/
abbrev SyncConfig := SyncStage × Node × ChainFile

/-- The next step of a synchronization with a peer that answers from a fixed
chain, when every message is delivered and nothing else happens at the node. -/
def honestStep (server : NodeRuntime) (config : SyncConfig) (env : Environment) : SyncConfig :=
  match config.1.requested with
  | some startIndex => (config.1.onReply env.clock (server.chainChunkResponse startIndex), config.2)
  | none => config.1.onLock env config.2.1 config.2.2

theorem honestStep_reply {server : NodeRuntime} {stage : SyncStage} {startIndex : UInt64}
    (asks : stage.requested = some startIndex) (node : Node) (file : ChainFile) (env : Environment) :
    honestStep server (stage, node, file) env =
      (stage.onReply env.clock (server.chainChunkResponse startIndex), node, file) := by
  simp only [honestStep, asks]

theorem honestStep_lock {server : NodeRuntime} {stage : SyncStage} (asks : stage.requested = none) (node : Node)
    (file : ChainFile) (env : Environment) :
    honestStep server (stage, node, file) env = stage.onLock env node file := by
  simp only [honestStep, asks]

/-- Such a step is one of the steps of a node with its synchronizations. -/
theorem SyncWorld.step_honest {world : SyncWorld} {session : Nat} {stage : SyncStage}
    (found : world.sessions[session]? = some stage) (server : NodeRuntime) (env : Environment) :
    ∃ event, event.session = some session ∧
      ∃ next, (world.step event).sessions[session]? = some next ∧
        (next, (world.step event).node, (world.step event).file) =
          honestStep server (stage, world.node, world.file) env := by
  have place := (List.getElem?_eq_some_iff.mp found).1
  cases asks : stage.requested with
  | some startIndex =>
    refine ⟨.reply session env.clock (server.chainChunkResponse startIndex), rfl, ?_⟩
    simp only [SyncWorld.step, found, honestStep_reply asks]
    exact ⟨_, List.getElem?_set_self place, rfl⟩
  | none =>
    refine ⟨.lock session env, rfl, ?_⟩
    simp only [SyncWorld.step, found, honestStep_lock asks]
    exact ⟨_, List.getElem?_set_self place, rfl⟩

/-- Writes succeed, and no block of the chain is too far in the future. -/
structure Environment.Permits (env : Environment) (remote : List Block) : Prop where
  written : env.answer = .ok ()
  passes : ∀ block ∈ remote, ∀ reading,
    Blockchain.validateFutureTimestamp (env.clock reading) block.timestamp = .ok ()

/-- The node answers every request within a chain with a chunk of it that the
requester takes. -/
structure NodeRuntime.Serves (server : NodeRuntime) (remote : List Block) : Prop where
  length : remote.length < 2 ^ 64
  answers : ∀ startIndex : UInt64, startIndex.toNat ≤ remote.length →
    SyncStage.requestChunk startIndex (server.chainChunkResponse startIndex) = .ok (.served remote startIndex)

/-- A reachable node serves its chain. -/
theorem Descends.serves {server : NodeRuntime} {good : Block → Prop} (descends : Descends good server.node.ledger) :
    server.Serves server.node.blockchain.chain := by
  have length : server.node.blockchain.chain.length ≤ 10 ^ 7 := descends.length_le
  refine ⟨by omega, fun startIndex within => ?_⟩
  obtain ⟨message, answered, received⟩ := NodeRuntime.chainChunkResponse_received descends within
  rw [answered]
  exact received

variable {server : NodeRuntime} {remote : List Block} {node : Node} {file : ChainFile} {env : Environment}

theorem NodeRuntime.Serves.toNat_ofNat (serves : server.Serves remote) {position : Nat}
    (within : position ≤ remote.length) : (UInt64.ofNat position).toNat = position := by
  have length := serves.length
  exact UInt64.toNat_ofNat_of_lt' (by rw [UInt64.size]; omega)

/-- The chunk for a position within the chain. -/
theorem NodeRuntime.Serves.chunk (serves : server.Serves remote) {position : Nat} (within : position ≤ remote.length) :
    SyncStage.requestChunk (UInt64.ofNat position) (server.chainChunkResponse (UInt64.ofNat position)) =
      .ok { startIndex := UInt64.ofNat position, totalBlocks := UInt64.ofNat remote.length,
            blocks := (remote.drop position).take maxSyncBlocksPerMessage } := by
  have place := serves.toNat_ofNat within
  rw [serves.answers _ (by rw [place]; exact within)]
  unfold ChainChunk.served
  rw [place]

theorem NodeRuntime.Serves.lt_iff (serves : server.Serves remote) {position : Nat} (within : position ≤ remote.length) :
    UInt64.ofNat position < UInt64.ofNat remote.length ↔ position < remote.length :=
  ofNat_lt_ofNat (within.trans_lt serves.length) serves.length

theorem NodeRuntime.Serves.u64TryFrom (serves : server.Serves remote) {position : Nat}
    (within : position ≤ remote.length) : Kybernetes.u64TryFrom position = some (UInt64.ofNat position) :=
  u64TryFrom_eq_some.mpr (serves.toNat_ofNat within).symm

section Fetch

variable {candidate : Node} {position : Nat}

/-- One turn of the loop takes a chunk of the chain. -/
theorem takeChunk_served (serves : server.Serves remote) (track : OnTrack remote candidate position)
    (short : position < remote.length) (permits : env.Permits remote) (path : SyncPath) (originalHeight : Nat)
    (node : Node) (file : ChainFile) :
    ∃ after position', position < position' ∧ OnTrack remote after position' ∧
      honestStep server (.fetchCandidate path (UInt64.ofNat remote.length) (UInt64.ofNat position) originalHeight
        candidate, node, file) env =
      (SyncStage.continueCandidate path (UInt64.ofNat remote.length) (UInt64.ofNat position') originalHeight after,
        node, file) := by
  have total := serves.toNat_ofNat (Nat.le_refl _)
  have here := serves.toNat_ofNat track.within
  have next : (remote.drop position).take maxSyncBlocksPerMessage <+: remote.drop position := List.take_prefix _ _
  obtain ⟨after, applied, track'⟩ := track.apply permits.passes next
  have count : ((remote.drop position).take maxSyncBlocksPerMessage).length =
      min maxSyncBlocksPerMessage (remote.length - position) := by
    rw [List.length_take, List.length_drop]
  have limit : maxSyncBlocksPerMessage = 256 := rfl
  have remaining : (UInt64.ofNat remote.length - UInt64.ofNat position).toNat = remote.length - position := by
    rw [UInt64.toNat_sub_of_le _ _ (UInt64.le_iff_toNat_le.mpr (by omega)), total, here]
  refine ⟨after, _, by omega, track', ?_⟩
  have run : (do
      let chunk ← SyncStage.requestChunk (UInt64.ofNat position) (server.chainChunkResponse (UInt64.ofNat position))
      SyncStage.takeChunk env.clock path (UInt64.ofNat remote.length) (UInt64.ofNat position) originalHeight candidate
        chunk) = .ok (SyncStage.continueCandidate path (UInt64.ofNat remote.length)
          (UInt64.ofNat (position + ((remote.drop position).take maxSyncBlocksPerMessage).length)) originalHeight
            after) := by
    simp only [SyncStage.takeChunk, bind_eq_ok, rejectIf_eq_ok, okOr_eq_ok, pure_eq_ok, exists_const, remaining]
    refine ⟨_, serves.chunk track.within, UInt64.lt_irrefl _, after, ?_, _, ?_, rfl⟩
    · rw [List.take_of_length_le (by dsimp only; omega)]
      exact applied
    · rw [track'.length]
      exact serves.u64TryFrom track'.within
  rw [honestStep_reply rfl]
  unfold SyncStage.onReply
  dsimp only
  rw [run]
  rfl

/-- The loop over the rest of the chain gets to its end: every chunk brings a
block at least. -/
theorem continueCandidate_inevitable (serves : server.Serves remote) (track : OnTrack remote candidate position)
    (path : SyncPath) (originalHeight : Nat) (node : Node) (file : ChainFile) :
    Inevitable (honestStep server) (·.Permits remote)
      (fun config => ∃ whole, OnTrack remote whole remote.length ∧
        config = (.adopt path originalHeight whole, node, file))
      (SyncStage.continueCandidate path (UInt64.ofNat remote.length) (UInt64.ofNat position) originalHeight candidate,
        node, file) := by
  induction gap : remote.length - position using Nat.strongRecOn generalizing candidate position with
  | ind left ih =>
    have order := serves.lt_iff track.within
    by_cases short : position < remote.length
    · refine .next fun env permits => ?_
      rw [SyncStage.continueCandidate, if_pos (order.mpr short)]
      obtain ⟨after, position', further, track', taken⟩ :=
        takeChunk_served serves track short permits path originalHeight node file
      rw [taken]
      exact ih _ (by omega) track' rfl
    · have last : position = remote.length := by
        have within := track.within
        omega
      rw [SyncStage.continueCandidate, if_neg fun less => short (order.mp less)]
      subst last
      exact .here ⟨candidate, track, rfl⟩

end Fetch

/-- A chunk with the anchor in it decides between the two paths. -/
theorem compareAnchor_served (serves : server.Serves remote) (localHeight : UInt64) (localTipHash : Text)
    {anchor start : Nat} (inside : anchor < remote.length) (before : start ≤ anchor)
    (within : anchor < start + maxSyncBlocksPerMessage) :
    ∃ remoteAnchor, remote[anchor]? = some remoteAnchor ∧
      SyncStage.compareAnchor (.served remote 0) localHeight localTipHash (UInt64.ofNat anchor) (UInt64.ofNat start)
          ((remote.drop start).take maxSyncBlocksPerMessage) =
        .ok (if remoteAnchor.hash = localTipHash then
          .extendFromCommonTip (.served remote 0) localHeight
            (((remote.drop start).take maxSyncBlocksPerMessage).drop (anchor - start + 1))
          else .replaceFromFullChainStream (.served remote 0)) := by
  have offset : checkedSub (UInt64.ofNat anchor) (UInt64.ofNat start) = some (UInt64.ofNat (anchor - start)) := by
    rw [checkedSub_eq_some, serves.toNat_ofNat (by omega), serves.toNat_ofNat (by omega),
      serves.toNat_ofNat (by omega)]
    omega
  obtain ⟨remoteAnchor, found⟩ : ∃ block, remote[anchor]? = some block := ⟨_, List.getElem?_eq_getElem inside⟩
  have inChunk : ((remote.drop start).take maxSyncBlocksPerMessage)[anchor - start]? = some remoteAnchor := by
    rw [List.getElem?_take_of_lt (by omega), List.getElem?_drop, show start + (anchor - start) = anchor by omega]
    exact found
  refine ⟨remoteAnchor, found, ?_⟩
  simp only [SyncStage.compareAnchor, bind_eq_ok, okOr_eq_ok]
  refine ⟨_, offset, remoteAnchor, ?_, ?_⟩
  · rw [serves.toNat_ofNat (by omega)]
    exact inChunk
  · rw [serves.toNat_ofNat (by omega)]
    split
    · rfl
    · rfl

/-- The loop over a chain of equal length gets to its end as well. -/
theorem continueRemoteChain_inevitable (serves : server.Serves remote) (localTipHash : Text) (node : Node)
    (file : ChainFile) (position : Nat) :
    Inevitable (honestStep server) (·.Permits remote)
      (fun config => config = (.ofResult (SyncStage.continueRemoteChain (UInt64.ofNat remote.length) localTipHash
        remote), node, file))
      (.ofResult (SyncStage.continueRemoteChain (UInt64.ofNat remote.length) localTipHash (remote.take position)),
        node, file) := by
  induction gap : remote.length - position using Nat.strongRecOn generalizing position with
  | ind left ih =>
    by_cases short : position < remote.length
    · have taken : (remote.take position).length = position := by rw [List.length_take, Nat.min_eq_left short.le]
      have limit : maxSyncBlocksPerMessage = 256 := rfl
      have waiting : SyncStage.continueRemoteChain (UInt64.ofNat remote.length) localTipHash (remote.take position) =
          .ok (.fetchRemoteChain (UInt64.ofNat remote.length) localTipHash (UInt64.ofNat position)
            (remote.take position)) := by
        simp only [SyncStage.continueRemoteChain, bind_eq_ok, okOr_eq_ok, taken]
        refine ⟨_, serves.u64TryFrom short.le, ?_⟩
        rw [if_pos ((serves.lt_iff short.le).mpr short)]
        rfl
      rw [waiting]
      refine .next fun env permits => ?_
      have replied : honestStep server (.fetchRemoteChain (UInt64.ofNat remote.length) localTipHash
          (UInt64.ofNat position) (remote.take position), node, file) env =
          (.ofResult (SyncStage.continueRemoteChain (UInt64.ofNat remote.length) localTipHash
            (remote.take (position + maxSyncBlocksPerMessage))), node, file) := by
        rw [honestStep_reply rfl]
        unfold SyncStage.onReply
        dsimp only
        rw [serves.chunk short.le, List.take_add]
        unfold rejectIf
        dsimp only [Bind.bind, Except.bind]
        rw [if_neg (not_not.mpr rfl)]
      simp only [SyncStage.ofResult] at replied ⊢
      rw [replied]
      exact ih _ (by omega) (position + maxSyncBlocksPerMessage) rfl
    · rw [List.take_of_length_le (by omega)]
      exact .here rfl

end

end Kybernetes
