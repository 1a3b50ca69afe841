import Kybernetes.Base.Runs
import Kybernetes.Bootstrap

namespace Kybernetes

variable [Crypto]

namespace Node

/-- The `Block` branch of `receive_message`: a block whose hash is in the
chain is not looked at again. -/
def receiveBlockMessage (self : Node) (now : SystemTime) (answer : WriteAnswer) (file : ChainFile)
    (block : Block) : Result Bool × Node × ChainFile :=
  if self.blockchain.chain.any fun knownBlock => knownBlock.hash == block.hash then (.ok false, self, file)
  else self.receiveBlock now answer file block

end Node

structure NodeRuntime where
  node : Node
  validatorIdentity : Option Wallet
  validatorKeystoreLocked : Bool
  chainSyncActive : Bool

/-- What the keystore of the data directory gives for the password of one
start: whether it stays locked, and the identity it unlocks for the
consensus set and the genesis fingerprint. -/
abbrev KeystoreAnswer := Consensus → Text → Result (Bool × Option Wallet)

namespace NodeRuntime

def initializeAt (keystore : KeystoreAnswer) (clock : Nat → SystemTime) (answer : WriteAnswer)
    (file : ChainFile) : Result NodeRuntime × ChainFile :=
  match Bootstrap.canonicalBootstrap with
  | .error fault => (.error fault, file)
  | .ok bootstrap =>
    match keystore bootstrap.consensus bootstrap.genesisFingerprint with
    | .error fault => (.error fault, file)
    | .ok (validatorKeystoreLocked, validatorIdentity) =>
      let node := Node.new bootstrap.blockchain bootstrap.state bootstrap.consensus
      match Storage.loadBlockchainFrom file with
      | .error fault => (.error fault, file)
      | .ok (some chain) =>
        match node.restoreChainFromStorage clock answer file chain with
        | (.error fault, _, file) => (.error fault, file)
        | (.ok (), node, file) =>
          (.ok { node, validatorIdentity, validatorKeystoreLocked, chainSyncActive := false }, file)
      | .ok none =>
        match Storage.saveBlockchainTo answer file node.blockchain.chain with
        | (.error fault, file) => (.error fault, file)
        | (.ok (), file) =>
          (.ok { node, validatorIdentity, validatorKeystoreLocked, chainSyncActive := false }, file)

/-- `Network::current_timestamp`, zero before the epoch. -/
def currentTimestamp (now : SystemTime) : UInt64 :=
  (now.map fun seconds => UInt64.ofNat seconds.val).getD 0

/-- The clock is read once for the timestamp and once by the future check. -/
def tryProducePendingBlock (self : NodeRuntime) (clock : Nat → SystemTime) (answer : WriteAnswer)
    (file : ChainFile) : Result (Option Block) × NodeRuntime × ChainFile :=
  match self.validatorIdentity with
  | none => (.ok none, self, file)
  | some identity =>
    if self.chainSyncActive then (.ok none, self, file)
    else if self.node.mempool.isEmpty then (.ok none, self, file)
    else
      match self.node.blockchain.chain.getLast? with
      | none => (.error (.error "Blockchain is empty"), self, file)
      | some tip =>
        match self.node.selectValidator tip.hash with
        | none => (.error (.error "Validator could not be selected"), self, file)
        | some selected =>
          if selected ≠ identity.address then (.ok none, self, file)
          else
            match checkedAdd tip.timestamp 1 with
            | none => (.error (.error "Block timestamp overflow"), self, file)
            | some next =>
              match self.node.produceBlock (clock 1) answer file (max (currentTimestamp (clock 0)) next)
                  identity with
              | (.error fault, node, file) => (.error fault, { self with node }, file)
              | (.ok block, node, file) => (.ok (some block), { self with node }, file)

end NodeRuntime

/-- A chain synchronization with a peer between two of its lock
acquisitions: the candidate it builds and the height it started from. -/
structure SyncTask where
  originalHeight : Nat
  candidate : Node

/-- A running node: the locked runtime and the synchronizations in flight. -/
structure Process where
  runtime : NodeRuntime
  syncTasks : List SyncTask

/-- What the outside gives an operation: the readings of the clock and the
answer to its write of the chain file. Every operation writes at most once. -/
structure Environment where
  clock : Nat → SystemTime
  answer : WriteAnswer

/-- What can happen to a running node while it holds its lock. The peers, the
clients and the network choose every argument. -/
inductive Operation
  | insertTransaction (transaction : Transaction)
  | receiveBlock (block : Block)
  | receiveBlockMessage (block : Block)
  | produceBlock (timestamp : UInt64) (validatorWallet : Wallet)
  | tryProducePendingBlock
  | setChainSyncActive (active : Bool)
  | applyChainChunk (startIndex totalBlocks : UInt64) (blocks : List Block)
  | requestChain
  | verifyEqualChain (chain : List Block)
  /-- The snapshot of `extend_from_common_tip`. -/
  | beginExtend
  /-- The fresh candidate of `replace_from_full_chain_stream`. -/
  | beginReplace
  /-- The candidate of a synchronization takes one more block. -/
  | applySyncBlock (task : Nat) (block : Block)
  /-- The last lock acquisition of a synchronization. -/
  | commitSync (task : Nat)

/-- A process and its chain file after an operation, with the block that
`produce_block` returned in it. -/
structure Performed where
  process : Process
  file : ChainFile
  produced : Option Block

namespace Process

omit [Crypto] in
/-- `NodeRuntime::from_node` on a node whose identity was checked. -/
def start (node : Node) (validatorIdentity : Option Wallet) : Process where
  runtime := { node, validatorIdentity, validatorKeystoreLocked := false, chainSyncActive := false }
  syncTasks := []

omit [Crypto] in
def node (self : Process) : Node :=
  self.runtime.node

omit [Crypto] in
def withNode (self : Process) (node : Node) : Process :=
  { self with runtime := { self.runtime with node } }

/-- The candidate that replays a peer's whole chain starts from the canonical
genesis, not from the local one. -/
def canonicalCandidate : Node :=
  Node.new Bootstrap.canonical.blockchain Bootstrap.canonical.state Bootstrap.canonical.consensus

/-- `apply_block_to_sync_candidate` for one synchronization, which ends when
its block is refused. -/
def applySyncBlock (self : Process) (now : SystemTime) (task : Nat) (block : Block) : Process :=
  match self.syncTasks[task]? with
  | none => self
  | some syncTask =>
    match syncTask.candidate.applyBlockToSyncCandidate now block with
    | .error _ => { self with syncTasks := self.syncTasks.eraseIdx task }
    | .ok candidate => { self with syncTasks := self.syncTasks.set task { syncTask with candidate } }

omit [Crypto] in
/-- The end of a synchronization: only the height is compared with the one
at its start. -/
def commitSync (self : Process) (answer : WriteAnswer) (file : ChainFile) (task : Nat) : Process × ChainFile :=
  match self.syncTasks[task]? with
  | none => (self, file)
  | some syncTask =>
    let self := { self with syncTasks := self.syncTasks.eraseIdx task }
    if self.node.blockchain.chain.length ≠ syncTask.originalHeight then (self, file)
    else
      match self.node.adoptValidatedSyncCandidate answer file syncTask.candidate.blockchain
          syncTask.candidate.state with
      | (_, node, file) => (self.withNode node, file)

def perform (env : Environment) (operation : Operation) (self : Process) (file : ChainFile) : Performed :=
  match operation with
  | .insertTransaction transaction =>
    { process := self.withNode (self.node.insertTransactionIntoMempool transaction).2, file, produced := none }
  | .receiveBlock block =>
    match self.node.receiveBlock (env.clock 0) env.answer file block with
    | (_, node, file) => { process := self.withNode node, file, produced := none }
  | .receiveBlockMessage block =>
    match self.node.receiveBlockMessage (env.clock 0) env.answer file block with
    | (_, node, file) => { process := self.withNode node, file, produced := none }
  | .produceBlock timestamp validatorWallet =>
    match self.node.produceBlock (env.clock 0) env.answer file timestamp validatorWallet with
    | (.ok block, node, file) => { process := self.withNode node, file, produced := some block }
    | (.error _, node, file) => { process := self.withNode node, file, produced := none }
  | .tryProducePendingBlock =>
    match self.runtime.tryProducePendingBlock env.clock env.answer file with
    | (.ok block, runtime, file) => { process := { self with runtime }, file, produced := block }
    | (.error _, runtime, file) => { process := { self with runtime }, file, produced := none }
  | .setChainSyncActive active =>
    { process := { self with runtime := { self.runtime with chainSyncActive := active } }, file,
      produced := none }
  | .applyChainChunk startIndex totalBlocks blocks =>
    match self.node.applyChainChunk env.clock env.answer file startIndex totalBlocks blocks with
    | (_, node, file) => { process := self.withNode node, file, produced := none }
  | .requestChain => { process := self.withNode self.node.requestChain, file, produced := none }
  | .verifyEqualChain chain =>
    match self.node.verifyEqualChain env.clock env.answer file chain with
    | (_, node, file) => { process := self.withNode node, file, produced := none }
  | .beginExtend =>
    { process := { self with
        syncTasks := self.syncTasks ++
          [{ originalHeight := self.node.blockchain.chain.length
             candidate := self.node.syncCandidateSnapshot }] },
      file, produced := none }
  | .beginReplace =>
    { process := { self with
        syncTasks := self.syncTasks ++
          [{ originalHeight := self.node.blockchain.chain.length, candidate := canonicalCandidate }] },
      file, produced := none }
  | .applySyncBlock task block =>
    { process := self.applySyncBlock (env.clock 0) task block, file, produced := none }
  | .commitSync task =>
    match self.commitSync env.answer file task with
    | (process, file) => { process, file, produced := none }

/-- One operation, as a step on the process and its file. -/
def step (config : Process × ChainFile) (event : Environment × Operation) : Process × ChainFile :=
  ((config.1.perform event.1 event.2 config.2).process, (config.1.perform event.1 event.2 config.2).file)

/-- The process after a list of operations, started with the given file. -/
def run (self : Process) (file : ChainFile) (history : List (Environment × Operation)) :
    Process × ChainFile :=
  runFrom step (self, file) history

end Process

/-- What happens to a data directory and the process that runs on it. -/
inductive MachineEvent
  | perform (env : Environment) (operation : Operation)
  /-- The process dies in the middle of an operation, before or after the
  write of the operation took effect. -/
  | crash (env : Environment) (operation : Operation) (written : Bool)
  | initializeAt (keystore : KeystoreAnswer) (env : Environment)
  /-- The process dies while it starts. -/
  | crashInitializeAt (keystore : KeystoreAnswer) (env : Environment) (written : Bool)

/-- A data directory, the process running on it if there is one, and the
blocks that were produced on it and whose chain file was written, oldest first. -/
structure Machine where
  process : Option Process
  file : ChainFile
  released : List Block

namespace Machine

omit [Crypto] in
def idle (file : ChainFile) : Machine where
  process := none
  file := file
  released := []

omit [Crypto] in
def started (self : Machine) : Result NodeRuntime × ChainFile → Machine
  | (.ok runtime, file) => { self with process := some { runtime, syncTasks := [] }, file }
  | (.error _, file) => { self with file }

/-- A start is an event of a directory without a running process, everything
else one of a running process. -/
def step (self : Machine) (event : MachineEvent) : Machine :=
  match event, self.process with
  | .perform env operation, some process =>
    let performed := process.perform env operation self.file
    { process := some performed.process, file := performed.file
      released := self.released ++ performed.produced.toList }
  | .crash env operation written, some process =>
    let performed := process.perform env operation self.file
    if written then
      { process := none, file := performed.file, released := self.released ++ performed.produced.toList }
    else { self with process := none }
  | .initializeAt keystore env, none =>
    self.started (NodeRuntime.initializeAt keystore env.clock env.answer self.file)
  | .crashInitializeAt keystore env written, none =>
    if written then { self with file := (NodeRuntime.initializeAt keystore env.clock env.answer self.file).2 }
    else self
  | _, _ => self

def run (self : Machine) (events : List MachineEvent) : Machine :=
  runFrom step self events

end Machine

end Kybernetes
