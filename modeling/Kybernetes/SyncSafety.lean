import Kybernetes.SyncSession

namespace Kybernetes

open Bootstrap
open Process (canonicalCandidate)

section

variable [Crypto]

/-- The last second the clock can show. -/
def farFuture : SystemTime :=
  some (Fin.last _)

/-- The block is attested and passes the future check at some time. -/
def Lasting (block : Block) : Prop :=
  Replayable (fun _ => farFuture) block

theorem Environment.yields_lasting (lawful : SignaturesVerify) (env : Environment) : env.Yields Lasting := by
  have ordered : env.Before { clock := fun _ => farFuture, answer := env.answer } := by
    intro i j
    show env.clock i ≤ farFuture
    cases env.clock i with
    | none => exact Option.none_le
    | some seconds => exact Option.some_le_some.mpr (Fin.le_last seconds)
  exact ordered.yields lawful

namespace Node

variable {node candidate after : Node} {clock : Nat → SystemTime} {blocks : List Block}

/-- A candidate grows by accepted blocks. -/
theorem applyBlocksToSyncCandidate_grown (run : candidate.applyBlocksToSyncCandidate clock blocks = .ok after) :
    after.consensus = candidate.consensus ∧
      Grown candidate.consensus (fun block => block.Attested ∧ Timely clock block) candidate.ledger after.ledger ∧
      after.blockchain.chain = candidate.blockchain.chain ++ blocks := by
  obtain ⟨ledger, rebuilt, rfl⟩ := applyBlocksToSyncCandidate_eq_ok.mp run
  obtain ⟨grown, chain⟩ := rebuildChain_grown rebuilt
  exact ⟨rfl, grown, chain⟩

end Node

/-- The node once it has adopted a candidate. -/
def Node.adopting (node candidate : Node) : Node :=
  { node with
    blockchain := candidate.blockchain
    state := candidate.state
    mempool := Mempool.new }

/-- What is known of a candidate while the node goes on. On the common-tip path
the node had the candidate's first `originalHeight` blocks as its chain; its
chain only changes by getting longer, so equal height means an equal chain. -/
structure CandidateSound (node : Node) (path : SyncPath) (originalHeight : Nat) (candidate : Node) : Prop where
  consensus : candidate.consensus = canonicalConsensus
  descends : Descends Lasting candidate.ledger
  begun : path = .commonTip → originalHeight ≤ node.blockchain.chain.length ∧
    (node.blockchain.chain.length = originalHeight →
      node.blockchain.chain <+: candidate.blockchain.chain)

/-- The same for whatever candidate a synchronization has. -/
def SyncStage.Sound (node : Node) (stage : SyncStage) : Prop :=
  match stage with
  | .fetchCandidate path _ _ originalHeight candidate | .adopt path originalHeight candidate =>
    CandidateSound node path originalHeight candidate
  | _ => True

section Candidates

variable {node node' candidate after : Node} {path : SyncPath} {originalHeight : Nat} {clock : Nat → SystemTime}
  {blocks : List Block}

/-- The chain of a node stays or gets longer. -/
def Node.Grows (node node' : Node) : Prop :=
  node'.blockchain.chain = node.blockchain.chain ∨
    node.blockchain.chain.length < node'.blockchain.chain.length

theorem CandidateSound.grows (sound : CandidateSound node path originalHeight candidate)
    (grows : node.Grows node') : CandidateSound node' path originalHeight candidate := by
  refine ⟨sound.consensus, sound.descends, fun common => ?_⟩
  obtain ⟨atLeast, still⟩ := sound.begun common
  rcases grows with same | longer
  · rw [same]
    exact ⟨atLeast, still⟩
  · exact ⟨by omega, fun equal => by omega⟩

theorem SyncStage.Sound.grows {stage : SyncStage} (sound : stage.Sound node) (grows : node.Grows node') :
    stage.Sound node' := by
  cases stage with
  | fetchCandidate | adopt => exact CandidateSound.grows sound grows
  | _ => trivial

theorem CandidateSound.apply (lawful : SignaturesVerify) (sound : CandidateSound node path originalHeight candidate)
    (run : candidate.applyBlocksToSyncCandidate clock blocks = .ok after) :
    CandidateSound node path originalHeight after := by
  obtain ⟨consensus, grown, chain⟩ := Node.applyBlocksToSyncCandidate_grown run
  have lasting : ∀ block : Block, block.Attested ∧ Timely clock block → Lasting block := fun block ⟨attested, timely⟩ =>
    Environment.yields_lasting lawful { clock, answer := .ok () } block timely (Or.inl attested)
  obtain ⟨genesis, rooted, before⟩ := sound.descends
  rw [sound.consensus] at grown
  refine ⟨consensus.trans sound.consensus, ⟨genesis, rooted, before.trans (grown.mono lasting)⟩, fun common => ?_⟩
  obtain ⟨atLeast, still⟩ := sound.begun common
  refine ⟨atLeast, fun equal => (still equal).trans ?_⟩
  rw [chain]
  exact List.prefix_append _ _

theorem SyncStage.continueCandidate_sound (sound : CandidateSound node path originalHeight candidate)
    (totalBlocks nextIndex : UInt64) :
    (SyncStage.continueCandidate path totalBlocks nextIndex originalHeight candidate).Sound node := by
  unfold SyncStage.continueCandidate
  split
  · exact sound
  · exact sound

theorem SyncStage.ofResult_sound {result : Result SyncStage} (each : ∀ stage, result = .ok stage → stage.Sound node) :
    (SyncStage.ofResult result).Sound node := by
  cases result with
  | error fault => trivial
  | ok stage => exact each stage rfl

end Candidates

namespace SyncStage

variable {node : Node} {stage : SyncStage} {status : ChainChunk} {localHeight : UInt64} {localTipHash : Text}

theorem continueRemoteChain_sound {totalBlocks : UInt64} {remoteChain : List Block}
    (run : continueRemoteChain totalBlocks localTipHash remoteChain = .ok stage) : stage.Sound node := by
  simp only [continueRemoteChain, bind_eq_ok] at run
  obtain ⟨nextIndex, _, run⟩ := run
  split at run
  · cases pure_eq_ok.mp run
    trivial
  · simp only [bind_eq_ok, pure_eq_ok] at run
    obtain ⟨_, _, _, _, rfl⟩ := run
    trivial

theorem compareAnchor_sound {anchorIndex startIndex : UInt64} {anchorBlocks : List Block}
    (run : compareAnchor status localHeight localTipHash anchorIndex startIndex anchorBlocks = .ok stage) :
    stage.Sound node := by
  simp only [compareAnchor, bind_eq_ok] at run
  obtain ⟨_, _, _, _, run⟩ := run
  split at run
  · cases pure_eq_ok.mp run
    trivial
  · cases pure_eq_ok.mp run
    trivial

/-- Nothing is built before the local tip has been compared with the chunk. -/
theorem readTip_sound {source : Node} (run : readTip source status = .ok stage) : stage.Sound node := by
  simp only [readTip, compareStatus, bind_eq_ok] at run
  obtain ⟨_, _, _, _, _, _, _, _, _, _, run⟩ := run
  split at run
  · cases pure_eq_ok.mp run
    trivial
  split at run
  · exact continueRemoteChain_sound run
  obtain ⟨_, _, run⟩ := bind_eq_ok.mp run
  split at run
  · exact compareAnchor_sound run
  · cases pure_eq_ok.mp run
    trivial

/-- An answer to a synchronization leaves its candidate sound. -/
theorem Sound.onReply (lawful : SignaturesVerify) (sound : stage.Sound node) (clock : Nat → SystemTime)
    (stream : Result NetworkMessage) : (stage.onReply clock stream).Sound node := by
  cases stage with
  | requestStatus =>
    refine ofResult_sound fun next run => ?_
    obtain ⟨_, _, run⟩ := bind_eq_ok.mp run
    cases pure_eq_ok.mp run
    trivial
  | fetchRemoteChain totalBlocks localTipHash nextIndex remoteChain =>
    refine ofResult_sound fun next run => ?_
    simp only [bind_eq_ok] at run
    obtain ⟨_, _, _, _, run⟩ := run
    exact continueRemoteChain_sound run
  | requestAnchor status localHeight localTipHash anchorIndex =>
    refine ofResult_sound fun next run => ?_
    simp only [bind_eq_ok] at run
    obtain ⟨_, _, _, _, run⟩ := run
    exact compareAnchor_sound run
  | fetchCandidate path totalBlocks nextIndex originalHeight candidate =>
    refine ofResult_sound fun next run => ?_
    simp only [takeChunk, bind_eq_ok, pure_eq_ok] at run
    obtain ⟨_, _, _, _, candidate', applied, _, _, rfl⟩ := run
    exact continueCandidate_sound (CandidateSound.apply lawful sound applied) _ _
  | readLocalTip | verifyEqualChain | extendFromCommonTip | replaceFromFullChainStream | finished => trivial
  | adopt => exact sound

/-- The commit of a synchronization, judged against the node as it is then. -/
structure Commits (env : Environment) (node : Node) (file : ChainFile) (stage : SyncStage) (path : SyncPath)
    (candidate : Node) : Prop where
  asked : stage = .adopt path node.blockchain.chain.length candidate
  judged : node.judgeSyncCandidate candidate.blockchain = .ok true
  result : stage.onLock env node file =
    (.finished (.ok ()), node.adopting candidate, .blocks candidate.blockchain.chain)

/-- With the lock a synchronization commits its candidate, or leaves the node
and its file as they are. -/
theorem Sound.onLock (lawful : SignaturesVerify) (sound : stage.Sound node) (env : Environment) (file : ChainFile)
    (consensus : node.consensus = canonicalConsensus) (descends : Descends Lasting node.ledger) :
    (∃ next, stage.onLock env node file = (next, node, file) ∧ next.Sound node) ∨
      ∃ path candidate, stage.Commits env node file path candidate := by
  cases stage with
  | readLocalTip status => exact Or.inl ⟨_, rfl, ofResult_sound fun next run => readTip_sound run⟩
  | verifyEqualChain remoteChain =>
    obtain ⟨result, kept⟩ := verifyEqualChain_keeps node env.clock env.answer file remoteChain
    refine Or.inl ⟨.finished result, ?_, trivial⟩
    simp only [SyncStage.onLock, kept]
  | extendFromCommonTip status localHeight anchorSuffix =>
    refine Or.inl ⟨_, rfl, ofResult_sound fun next run => ?_⟩
    simp only [beginExtend, bind_eq_ok, pure_eq_ok] at run
    obtain ⟨candidate, applied, nextIndex, _, _, _, rfl⟩ := run
    have snapshot : CandidateSound node .commonTip node.blockchain.chain.length node.syncCandidateSnapshot :=
      ⟨consensus, descends, fun _ => ⟨Nat.le_refl _, fun _ => List.prefix_refl _⟩⟩
    exact continueCandidate_sound (snapshot.apply lawful applied) _ _
  | replaceFromFullChainStream firstChunk =>
    refine Or.inl ⟨_, by unfold SyncStage.onLock; exact rfl, ofResult_sound fun next run => ?_⟩
    simp only [beginReplace, canonicalBootstrap_eq, bind_eq_ok, pure_eq_ok, Except.ok.injEq, exists_eq_left'] at run
    obtain ⟨_, _, _, _, _, _, candidate, applied, nextIndex, _, rfl⟩ := run
    have fresh : CandidateSound node .fullChain node.blockchain.chain.length canonicalCandidate :=
      ⟨rfl, .start Lasting, fun other => by cases other⟩
    exact continueCandidate_sound (fresh.apply lawful applied) _ _
  | adopt path originalHeight candidate =>
    unfold SyncStage.onLock
    dsimp only
    split
    · exact Or.inl ⟨_, rfl, trivial⟩
    · rename_i same
      rw [not_not] at same
      rcases adoptValidatedSyncCandidate_cases node env.answer file candidate.blockchain candidate.state with
        ⟨result, kept⟩ | ⟨judged, done⟩
      · rw [kept]
        exact Or.inl ⟨_, rfl, trivial⟩
      · refine Or.inr ⟨path, candidate, by rw [same], judged, ?_⟩
        unfold SyncStage.onLock
        dsimp only
        rw [if_neg (not_not.mpr same), done]
        rfl
  | requestStatus | fetchRemoteChain | requestAnchor | fetchCandidate | finished => exact Or.inl ⟨_, rfl, sound⟩

end SyncStage

/-- A node that adopts a sound candidate stays canonical. -/
theorem Process.Canonical.adopted {process : Process} {path : SyncPath} {originalHeight : Nat} {candidate : Node}
    (canonical : process.Canonical Lasting)
    (sound : CandidateSound process.node path originalHeight candidate) :
    (process.withNode (process.node.adopting candidate)).Canonical Lasting := by
  refine ⟨canonical.consensus, canonical.genesisState, canonical.genesisEconomy, sound.descends, ?_,
    canonical.candidates⟩
  intro transaction member
  simp [Process.withNode, Process.node, Node.adopting, Mempool.new] at member

namespace SyncWorld

/-- What holds of a canonical node with its synchronizations. -/
structure Sound (world : SyncWorld) : Prop where
  canonical : world.process.Canonical Lasting
  sessions : ∀ stage ∈ world.sessions, stage.Sound world.node

/-- The commit of a session: the chain that replaces the chain of the node, and
what it rests on. -/
structure Commits (before after : SyncWorld) (session : Nat) : Prop where
  longer : before.node.blockchain.chain.length < after.node.blockchain.chain.length
  genesis : after.node.blockchain.chain.head?.map Block.hash = before.node.blockchain.chain.head?.map Block.hash
  replayed : ∃ genesis rest clock, after.node.blockchain.chain = genesis :: rest ∧
    after.node.rebuildChain clock { chain := [genesis], economy := after.node.genesisEconomy }
      after.node.genesisState rest = .ok (after.node.blockchain, after.node.state)
  kept : ∀ originalHeight candidate,
    before.sessions[session]? = some (.adopt .commonTip originalHeight candidate) →
      before.node.blockchain.chain <+: after.node.blockchain.chain
  finished : after.sessions[session]? = some (.finished (.ok ()))

variable {world : SyncWorld} {stage : SyncStage} {session : Nat}

theorem Sound.start {process : Process} {file : ChainFile} (canonical : process.Canonical Lasting) :
    (SyncWorld.start process file).Sound :=
  ⟨canonical, by simp [SyncWorld.start]⟩

/-- A session with the lock leaves the node and its file, or commits. -/
theorem Sound.lock_cases (lawful : SignaturesVerify) (sound : world.Sound)
    (found : world.sessions[session]? = some stage) (env : Environment) :
    (∃ next, stage.onLock env world.node world.file = (next, world.node, world.file) ∧ next.Sound world.node) ∨
      ∃ path candidate, stage.Commits env world.node world.file path candidate :=
  (sound.sessions stage (List.mem_of_getElem? found)).onLock lawful env world.file sound.canonical.consensus
    sound.canonical.descends

theorem Sound.step (lawful : SignaturesVerify) (sound : world.Sound) (event : SyncEvent) :
    (world.step event).Sound := by
  cases event with
  | operation env operation =>
    have advance := Process.perform_advances env operation world.file sound.canonical.admitted
    have grows : world.node.Grows (world.process.perform env operation world.file).process.node := by
      rcases advance.stored with ⟨_, longer⟩ | ⟨_, same, _⟩
      · exact Or.inr longer
      · exact Or.inl (congrArg Blockchain.chain same)
    exact ⟨sound.canonical.perform (env.yields_lasting lawful) operation world.file,
      fun stage member => (sound.sessions stage member).grows grows⟩
  | connect =>
    refine ⟨sound.canonical, fun stage member => ?_⟩
    rcases List.mem_append.mp member with old | new
    · exact sound.sessions stage old
    · rw [List.mem_singleton.mp new]
      trivial
  | reply session clock stream =>
    unfold SyncWorld.step
    dsimp only
    split
    · exact sound
    · rename_i stage found
      refine ⟨sound.canonical, fun other member => ?_⟩
      rcases List.mem_or_eq_of_mem_set member with old | rfl
      · exact sound.sessions other old
      · exact (sound.sessions stage (List.mem_of_getElem? found)).onReply lawful clock stream
  | lock session env =>
    unfold SyncWorld.step
    dsimp only
    split
    · exact sound
    · rename_i stage found
      rcases sound.lock_cases lawful found env with ⟨next, kept, holds⟩ | ⟨path, candidate, commits⟩
      · simp only [SyncWorld.node] at kept
        rw [kept]
        refine ⟨sound.canonical, fun other member => ?_⟩
        rcases List.mem_or_eq_of_mem_set member with old | rfl
        · exact sound.sessions other old
        · exact holds
      · obtain ⟨asked, judged, result⟩ := commits
        have candidateSound := sound.sessions stage (List.mem_of_getElem? found)
        rw [asked] at candidateSound
        have longer := (Node.judgeSyncCandidate_eq_true.mp judged).1
        have adopted := sound.canonical.adopted candidateSound
        simp only [SyncWorld.node] at result adopted longer
        rw [result]
        refine ⟨adopted, fun other member => ?_⟩
        rcases List.mem_or_eq_of_mem_set member with old | rfl
        · exact (sound.sessions other old).grows (Or.inr longer)
        · trivial

theorem Sound.run (lawful : SignaturesVerify) (sound : world.Sound) (events : List SyncEvent) :
    (world.run events).Sound :=
  runFrom_invariant SyncWorld.Sound (fun _ event before => before.step lawful event) sound events

/-- What the commit of a sound candidate makes of the node. -/
theorem Sound.commits (sound : world.Sound) {path : SyncPath} {candidate : Node}
    (found : world.sessions[session]? = some stage)
    (asked : stage = .adopt path world.node.blockchain.chain.length candidate)
    (judged : world.node.judgeSyncCandidate candidate.blockchain = .ok true) :
    Commits world
      { process := world.process.withNode (world.node.adopting candidate)
        file := .blocks candidate.blockchain.chain
        sessions := world.sessions.set session (.finished (.ok ())) } session := by
  have holds := sound.sessions stage (List.mem_of_getElem? found)
  rw [asked] at holds found
  obtain ⟨longer, localGenesis, genesis, first, head, same⟩ := Node.judgeSyncCandidate_eq_true.mp judged
  refine ⟨longer, ?_, ?_, fun originalHeight candidate' common => ?_, ?_⟩
  · show candidate.blockchain.chain.head?.map Block.hash = world.node.blockchain.chain.head?.map Block.hash
    rw [head, first, Option.map_some, Option.map_some, same]
  · obtain ⟨root, rooted, grown⟩ := holds.descends
    rw [← sound.canonical.consensus] at grown
    obtain ⟨rest, shape, run⟩ := Node.rebuildChain_of_grown grown
    have economy := sound.canonical.genesisEconomy
    have state := sound.canonical.genesisState
    simp only [canonicalLedger, ← economy, ← state] at run
    have same : (world.node.adopting candidate).consensus = world.node.consensus := rfl
    refine ⟨root, rest, fun _ => farFuture, shape, ?_⟩
    exact (Node.rebuildChain_congr same _ _ _ rest).trans run
  · rw [found] at common
    cases common
    exact (holds.begun rfl).2 rfl
  · exact List.getElem?_set_self (List.getElem?_eq_some_iff.mp found).1

/-- A step of a session changes nothing of the process and its file, or commits. -/
theorem Sound.session_step (lawful : SignaturesVerify) (sound : world.Sound) {event : SyncEvent}
    (own : event.session = some session) :
    (world.step event).process = world.process ∧ (world.step event).file = world.file ∨
      Commits world (world.step event) session := by
  cases event with
  | operation | connect => cases own
  | reply session clock stream =>
    unfold SyncWorld.step
    dsimp only
    split
    · exact Or.inl ⟨rfl, rfl⟩
    · exact Or.inl ⟨rfl, rfl⟩
  | lock own' env =>
    cases own
    unfold SyncWorld.step
    dsimp only
    split
    · exact Or.inl ⟨rfl, rfl⟩
    · rename_i stage found
      rcases sound.lock_cases lawful found env with ⟨next, kept, _⟩ | ⟨path, candidate, asked, judged, result⟩
      · simp only [SyncWorld.node] at kept
        rw [kept]
        exact Or.inl ⟨rfl, rfl⟩
      · simp only [SyncWorld.node] at result
        rw [result]
        exact Or.inr (sound.commits found asked judged)

end SyncWorld

/-- A synchronization is safe against any peer. Whatever the peer answers and
whatever the node does in between, a step of a synchronization leaves the
process alone or replaces its chain by a longer one with the same genesis hash
that replays to the new state and economy, and that continues the replaced
chain if the candidate was begun from it. -/
theorem Machine.sync_changes_safely (lawful : SignaturesVerify) (file : ChainFile) (starts : List MachineEvent)
    (process : Process) (running : ((Machine.idle file).run starts).process = some process)
    (events : List SyncEvent) (event : SyncEvent) (session : Nat) (own : event.session = some session) :
    let before := (SyncWorld.start process ((Machine.idle file).run starts).file).run events
    (before.step event).process = before.process ∧ (before.step event).file = before.file ∨
      SyncWorld.Commits before (before.step event) session := by
  intro before
  have machine : ((Machine.idle file).run starts).Sound Lasting :=
    Machine.run_sound_of_yields file starts fun event _ => event.env.yields_lasting lawful
  have start : (SyncWorld.start process ((Machine.idle file).run starts).file).Sound :=
    .start (machine.canonical process running)
  exact (start.run lawful events).session_step lawful own

end

open Fixture in
/-- A first start meets the hypotheses, here at the last lock of a
synchronization with a peer that has the genesis block alone. -/
theorem Fixture.first_start_syncs_safely :
    let answer : Result NetworkMessage := .ok (ChainChunk.served [canonicalGenesis] 0).message
    let world := SyncWorld.start (Process.start canonicalCandidate none)
      ((Machine.idle .missing).run [.initializeAt keystore env]).file
    let before := world.run [.connect, .reply 0 env.clock answer, .lock 0 env]
    (before.step (.lock 0 env)).process = before.process ∧ (before.step (.lock 0 env)).file = before.file ∨
      SyncWorld.Commits before (before.step (.lock 0 env)) 0 :=
  Machine.sync_changes_safely (CryptoTable.lawful table) .missing [.initializeAt keystore env]
    (Process.start canonicalCandidate none) Fixture.running _ _ 0 rfl

end Kybernetes
