import Kybernetes.Messages
import Kybernetes.ReplayPaths

namespace Kybernetes

variable [Crypto]

/-- The function that builds the candidate of a synchronization. -/
inductive SyncPath
  | commonTip
  | fullChain
deriving DecidableEq, Repr

/-- Where `sync_from_peer` stands between two of its awaits: it waits for the
answer to a chunk request, or for the lock of the runtime, or is done. -/
inductive SyncStage
  | requestStatus
  | readLocalTip (status : ChainChunk)
  | fetchRemoteChain (totalBlocks : UInt64) (localTipHash : Text) (nextIndex : UInt64) (remoteChain : List Block)
  | verifyEqualChain (remoteChain : List Block)
  | requestAnchor (status : ChainChunk) (localHeight : UInt64) (localTipHash : Text) (anchorIndex : UInt64)
  | extendFromCommonTip (status : ChainChunk) (localHeight : UInt64) (anchorSuffix : List Block)
  | replaceFromFullChainStream (firstChunk : ChainChunk)
  | fetchCandidate (path : SyncPath) (totalBlocks : UInt64) (nextIndex : UInt64) (originalHeight : Nat)
      (candidate : Node)
  | adopt (path : SyncPath) (originalHeight : Nat) (candidate : Node)
  | finished (result : Result Unit)

namespace SyncStage

omit [Crypto] in
/-- An error ends the synchronization. -/
def ofResult (result : Result SyncStage) : SyncStage :=
  match result with
  | .ok stage => stage
  | .error fault => .finished (.error fault)

/-- `request_chunk`. The stream gives a message, or an error for a connection
that cannot be written to, ends or times out. -/
def requestChunk (requestedStart : UInt64) (stream : Result NetworkMessage) : Result ChainChunk := do
  let message ← stream
  NodeRuntime.receiveChunk message requestedStart

omit [Crypto] in
/-- The condition of the loop for a chain of equal length, and what follows it. -/
def continueRemoteChain (totalBlocks : UInt64) (localTipHash : Text) (remoteChain : List Block) :
    Result SyncStage := do
  let nextIndex ← okOr (u64TryFrom remoteChain.length) "Remote chain length exceeds the u64 range"
  if nextIndex < totalBlocks then return .fetchRemoteChain totalBlocks localTipHash nextIndex remoteChain
  else
    let remoteTip ← okOr remoteChain.getLast? "Remote blockchain is empty"
    rejectIf (remoteTip.hash ≠ localTipHash) "Different remote fork with equal length was rejected"
    return .verifyEqualChain remoteChain

omit [Crypto] in
/-- From the anchor chunk on: `anchorBlocks` begins at `startIndex`. -/
def compareAnchor (status : ChainChunk) (localHeight : UInt64) (localTipHash : Text) (anchorIndex startIndex : UInt64)
    (anchorBlocks : List Block) : Result SyncStage := do
  let anchorOffset ← okOr (checkedSub anchorIndex startIndex) "Remote anchor index moved backwards"
  let remoteAnchor ← okOr anchorBlocks[anchorOffset.toNat]?
    "Remote chain does not contain the local tip anchor block"
  if remoteAnchor.hash = localTipHash then
    return .extendFromCommonTip status localHeight (anchorBlocks.drop (anchorOffset.toNat + 1))
  else return .replaceFromFullChainStream status

/-- What follows the first lock of `sync_from_peer`. -/
def compareStatus (status : ChainChunk) (localHeight : UInt64) (localGenesisHash localTipHash : Text) :
    Result SyncStage := do
  let remoteGenesis ← okOr status.blocks.head? "Remote status chunk does not contain genesis"
  rejectIf (remoteGenesis.index ≠ 0 ∨ remoteGenesis.hash ≠ remoteGenesis.calculateHash
    ∨ remoteGenesis.hash ≠ localGenesisHash) "Remote genesis does not match the canonical genesis"
  if status.totalBlocks < localHeight then return .finished (.ok ())
  else if status.totalBlocks = localHeight then
    continueRemoteChain status.totalBlocks localTipHash status.blocks
  else
    let anchorIndex ← okOr (checkedSub localHeight 1) "Local blockchain is empty"
    if anchorIndex < UInt64.ofNat status.blocks.length then
      compareAnchor status localHeight localTipHash anchorIndex 0 status.blocks
    else return .requestAnchor status localHeight localTipHash anchorIndex

/-- The first lock of `sync_from_peer`. -/
def readTip (node : Node) (status : ChainChunk) : Result SyncStage := do
  let localHeight ← okOr (u64TryFrom node.blockchain.chain.length) "Local blockchain length exceeds the u64 range"
  let localGenesis ← okOr node.blockchain.chain.head? "Local blockchain is empty"
  let localTip ← okOr node.blockchain.chain.getLast? "Local blockchain is empty"
  compareStatus status localHeight localGenesis.hash localTip.hash

omit [Crypto] in
/-- The condition of the loop over the rest of the chain, which both candidates
share. -/
def continueCandidate (path : SyncPath) (totalBlocks nextIndex : UInt64) (originalHeight : Nat) (candidate : Node) :
    SyncStage :=
  if nextIndex < totalBlocks then .fetchCandidate path totalBlocks nextIndex originalHeight candidate
  else .adopt path originalHeight candidate

/-- `extend_from_common_tip` up to its first request. -/
def beginExtend (clock : Nat → SystemTime) (node : Node) (status : ChainChunk) (localHeight : UInt64)
    (anchorSuffix : List Block) : Result SyncStage := do
  let originalHeight := node.blockchain.chain.length
  let candidate ← node.syncCandidateSnapshot.applyBlocksToSyncCandidate clock anchorSuffix
  let nextIndex ← okOr (u64TryFrom candidate.blockchain.chain.length)
    "Candidate blockchain length exceeds the u64 range"
  rejectIf (nextIndex < localHeight) "Candidate blockchain fell behind the local tip"
  return continueCandidate .commonTip status.totalBlocks nextIndex originalHeight candidate

/-- `replace_from_full_chain_stream` up to its first request. -/
def beginReplace (clock : Nat → SystemTime) (node : Node) (firstChunk : ChainChunk) : Result SyncStage := do
  let originalHeight := node.blockchain.chain.length
  let bootstrap ← Bootstrap.canonicalBootstrap
  let candidate := Node.new bootstrap.blockchain bootstrap.state bootstrap.consensus
  let candidateGenesis ← okOr candidate.blockchain.chain.head? "Canonical candidate genesis was not found"
  let remoteGenesis ← okOr firstChunk.blocks.head? "Remote full-chain chunk does not contain genesis"
  rejectIf (remoteGenesis.hash ≠ candidateGenesis.hash ∨ remoteGenesis.hash ≠ remoteGenesis.calculateHash)
    "Remote full-chain genesis is invalid"
  let candidate ← candidate.applyBlocksToSyncCandidate clock (firstChunk.blocks.drop 1)
  let nextIndex ← okOr (u64TryFrom candidate.blockchain.chain.length)
    "Candidate blockchain length exceeds the u64 range"
  return continueCandidate .fullChain firstChunk.totalBlocks nextIndex originalHeight candidate

/-- One turn of the loop over the rest of the chain. -/
def takeChunk (clock : Nat → SystemTime) (path : SyncPath) (totalBlocks nextIndex : UInt64) (originalHeight : Nat)
    (candidate : Node) (chunk : ChainChunk) : Result SyncStage := do
  rejectIf (chunk.totalBlocks < totalBlocks) "Remote total block count decreased during chain synchronization"
  let remaining := (totalBlocks - nextIndex).toNat
  let candidate ← candidate.applyBlocksToSyncCandidate clock (chunk.blocks.take remaining)
  let nextIndex ← okOr (u64TryFrom candidate.blockchain.chain.length)
    "Candidate blockchain length exceeds the u64 range"
  return continueCandidate path totalBlocks nextIndex originalHeight candidate

omit [Crypto] in
/-- The index of the chunk that the synchronization waits for. -/
def requested : SyncStage → Option UInt64
  | .requestStatus => some 0
  | .fetchRemoteChain _ _ nextIndex _ => some nextIndex
  | .requestAnchor _ _ _ anchorIndex => some anchorIndex
  | .fetchCandidate _ _ nextIndex _ _ => some nextIndex
  | _ => none

/-- The synchronization gets an answer and goes on to its next await. -/
def onReply (clock : Nat → SystemTime) (stream : Result NetworkMessage) (stage : SyncStage) : SyncStage :=
  match stage with
  | .requestStatus => ofResult do
    let status ← requestChunk 0 stream
    return .readLocalTip status
  | .fetchRemoteChain totalBlocks localTipHash nextIndex remoteChain => ofResult do
    let chunk ← requestChunk nextIndex stream
    rejectIf (chunk.totalBlocks ≠ totalBlocks) "Remote total block count changed during chain synchronization"
    continueRemoteChain totalBlocks localTipHash (remoteChain ++ chunk.blocks)
  | .requestAnchor status localHeight localTipHash anchorIndex => ofResult do
    let chunk ← requestChunk anchorIndex stream
    rejectIf (chunk.totalBlocks < status.totalBlocks)
      "Remote total block count decreased during chain synchronization"
    compareAnchor status localHeight localTipHash anchorIndex chunk.startIndex chunk.blocks
  | .fetchCandidate path totalBlocks nextIndex originalHeight candidate => ofResult do
    let chunk ← requestChunk nextIndex stream
    takeChunk clock path totalBlocks nextIndex originalHeight candidate chunk
  | stage => stage

/-- The synchronization gets the lock and goes on to its next await. What it
does after it has given the lock back touches only its own candidate. -/
def onLock (env : Environment) (node : Node) (file : ChainFile) (stage : SyncStage) :
    SyncStage × Node × ChainFile :=
  match stage with
  | .readLocalTip status => (ofResult (readTip node status), node, file)
  | .verifyEqualChain remoteChain =>
    match node.verifyEqualChain env.clock env.answer file remoteChain with
    | (result, node, file) => (.finished result, node, file)
  | .extendFromCommonTip status localHeight anchorSuffix =>
    (ofResult (beginExtend env.clock node status localHeight anchorSuffix), node, file)
  | .replaceFromFullChainStream firstChunk => (ofResult (beginReplace env.clock node firstChunk), node, file)
  | .adopt _ originalHeight candidate =>
    if node.blockchain.chain.length ≠ originalHeight then
      (.finished (.error (.error "Local tip changed during chain synchronization")), node, file)
    else
      match node.adoptValidatedSyncCandidate env.answer file candidate.blockchain candidate.state with
      | (result, node, file) => (.finished result, node, file)
  | stage => (stage, node, file)

end SyncStage

/-- A node with the synchronizations it runs. -/
structure SyncWorld where
  process : Process
  file : ChainFile
  sessions : List SyncStage

/-- What can happen to a node with synchronizations: an operation of the node,
a new connection to a peer, an answer of the peer of a session, or the lock
for a session. -/
inductive SyncEvent
  | operation (env : Environment) (operation : Operation)
  | connect
  | reply (session : Nat) (clock : Nat → SystemTime) (stream : Result NetworkMessage)
  | lock (session : Nat) (env : Environment)

/-- The session that an event belongs to. -/
def SyncEvent.session : SyncEvent → Option Nat
  | .operation .. | .connect => none
  | .reply session .. | .lock session _ => some session

namespace SyncWorld

def step (self : SyncWorld) (event : SyncEvent) : SyncWorld :=
  match event with
  | .operation env operation =>
    let performed := self.process.perform env operation self.file
    { self with process := performed.process, file := performed.file }
  | .connect => { self with sessions := self.sessions ++ [.requestStatus] }
  | .reply session clock stream =>
    match self.sessions[session]? with
    | none => self
    | some stage => { self with sessions := self.sessions.set session (stage.onReply clock stream) }
  | .lock session env =>
    match self.sessions[session]? with
    | none => self
    | some stage =>
      match stage.onLock env self.process.node self.file with
      | (stage, node, file) =>
        { process := self.process.withNode node, file, sessions := self.sessions.set session stage }

def run (self : SyncWorld) (events : List SyncEvent) : SyncWorld :=
  runFrom step self events

omit [Crypto] in
/-- A process before its first synchronization. -/
def start (process : Process) (file : ChainFile) : SyncWorld where
  process := process
  file := file
  sessions := []

omit [Crypto] in
def node (self : SyncWorld) : Node :=
  self.process.node

end SyncWorld

end Kybernetes
