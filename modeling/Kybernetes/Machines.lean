import Kybernetes.Conservation

namespace Kybernetes

open Bootstrap
open Process (canonicalCandidate)

variable [Crypto]

def MachineEvent.env : MachineEvent → Environment
  | .perform env _ | .crash env _ _ | .initializeAt _ env | .crashInitializeAt _ env _ => env

/-- A node as it stands right after a start: the canonical one, or the one
with the chain that was stored. -/
inductive Restored (env : Environment) : ChainFile → Node → ChainFile → Prop
  | fresh : Restored env .missing canonicalCandidate (.blocks [canonicalGenesis])
  | genesis {chain : List Block} (single : chain.length = 1)
      (equal : canonicalCandidate.checkEqualLengthChain chain = .ok ()) :
    Restored env (.blocks chain) canonicalCandidate (.blocks chain)
  | chain {genesis : Block} {rest : List Block} {after : Ledger} (longer : 0 < rest.length)
      (judged : canonicalCandidate.judgeChain env.clock (genesis :: rest) = .ok (some after))
      (rooted : Rooted canonicalGenesis genesis)
      (grown : Grown canonicalConsensus (fun block => block.Attested ∧ Timely env.clock block)
        (canonicalLedger genesis) after)
      (shape : after.1.chain = genesis :: rest) :
    Restored env (.blocks (genesis :: rest))
      { canonicalCandidate with blockchain := after.1, state := after.2, mempool := Mempool.new }
      (.blocks (genesis :: rest))

omit [Crypto] in
theorem loadBlockchainFrom_some {file : ChainFile} {chain : List Block}
    (loaded : Storage.loadBlockchainFrom file = .ok (some chain)) : file = .blocks chain ∧ chain ≠ [] := by
  cases file with
  | blocks stored =>
    simp only [Storage.loadBlockchainFrom] at loaded
    split at loaded
    · simp at loaded
    · rename_i nonempty
      cases loaded
      exact ⟨rfl, nonempty⟩
  | _ => simp [Storage.loadBlockchainFrom] at loaded

omit [Crypto] in
theorem loadBlockchainFrom_none {file : ChainFile} (loaded : Storage.loadBlockchainFrom file = .ok none) :
    file = .missing := by
  cases file with
  | missing => rfl
  | blocks stored =>
    simp only [Storage.loadBlockchainFrom] at loaded
    split at loaded <;> simp at loaded
  | _ => simp [Storage.loadBlockchainFrom] at loaded

namespace NodeRuntime

/-- A start succeeds with a restored node, or fails and leaves the file. -/
theorem initializeAt_cases (keystore : KeystoreAnswer) (env : Environment) (file : ChainFile) :
    (∃ fault, initializeAt keystore env.clock env.answer file = (.error fault, file)) ∨
      ∃ runtime file', initializeAt keystore env.clock env.answer file = (.ok runtime, file') ∧
        Restored env file runtime.node file' := by
  unfold initializeAt
  rw [canonicalBootstrap_eq]
  dsimp only
  split
  · exact Or.inl ⟨_, rfl⟩
  rename_i locked identity unlocked
  have candidate : Node.new canonical.blockchain canonical.state canonical.consensus = canonicalCandidate := rfl
  rw [candidate]
  split
  · exact Or.inl ⟨_, rfl⟩
  · rename_i chain loaded
    obtain ⟨rfl, nonempty⟩ := loadBlockchainFrom_some loaded
    unfold Node.restoreChainFromStorage
    rcases synchronizeChain_cases canonicalCandidate env.clock env.answer (.blocks chain) chain with
      ⟨fault, kept⟩ | ⟨judged, kept⟩ | ⟨after, judged, done, _⟩
    · rw [kept]
      exact Or.inl ⟨_, rfl⟩
    · rw [kept]
      obtain ⟨_, single, equal⟩ := Node.judgeChain_eq_none.mp judged
      exact Or.inr ⟨_, _, rfl, .genesis single equal⟩
    · rw [done]
      obtain ⟨localGenesis, genesis, rest, rfl, longer, first, rooted, grown, shape⟩ :=
        Node.judgeChain_some judged
      cases first
      rw [shape]
      exact Or.inr ⟨_, _, rfl, .chain (by simpa [canonicalCandidate, Node.new, canonical] using longer) judged rooted
        grown shape⟩
  · rename_i loaded
    obtain rfl := loadBlockchainFrom_none loaded
    rcases saveBlockchainTo_cases env.answer .missing canonicalCandidate.blockchain.chain with
      ⟨fault, save⟩ | ⟨_, save⟩
    · rw [save]
      exact Or.inl ⟨_, rfl⟩
    · rw [save]
      exact Or.inr ⟨_, _, rfl, .fresh⟩

/-- The first start on an empty directory, if the genesis chain can be written. -/
theorem initializeAt_missing {keystore : KeystoreAnswer} {clock : Nat → SystemTime} {locked : Bool}
    {identity : Option Wallet}
    (unlocked : keystore canonical.consensus canonical.genesisFingerprint = .ok (locked, identity)) :
    initializeAt keystore clock (.ok ()) .missing =
      (.ok { node := canonicalCandidate, validatorIdentity := identity, validatorKeystoreLocked := locked,
             chainSyncActive := false }, .blocks [canonicalGenesis]) := by
  unfold initializeAt
  rw [canonicalBootstrap_eq]
  dsimp only
  rw [unlocked]
  rfl

end NodeRuntime

/-- A restored node has the canonical ledger or one that descends from it. -/
theorem Restored.canonical {env : Environment} {file file' : ChainFile} {runtime : NodeRuntime}
    {good : Block → Prop} (restored : Restored env file runtime.node file') (yields : env.Yields good) :
    Process.Canonical good { runtime, syncTasks := [] } := by
  obtain ⟨node, identity, locked, active⟩ := runtime
  cases restored with
  | fresh => exact .start good rfl rfl
  | genesis => exact .start good rfl rfl
  | chain longer judged rooted grown shape =>
    have descends := grown.mono fun b signed => yields b signed.2 (Or.inl signed.1)
    refine ⟨rfl, rfl, rfl, ⟨_, rooted, descends⟩, ?_, by simp⟩
    intro transaction member
    simp [Process.node, Mempool.new] at member

/-- The file holds a chain as long as the one in memory. -/
def StoredLength (file : ChainFile) (node : Node) : Prop :=
  ∃ chain, file = .blocks chain ∧ chain.length = node.blockchain.chain.length

theorem Restored.stored {env : Environment} {file file' : ChainFile} {node : Node}
    (restored : Restored env file node file') : StoredLength file' node := by
  cases restored with
  | fresh => exact ⟨_, rfl, rfl⟩
  | genesis single => exact ⟨_, rfl, single⟩
  | chain longer judged rooted grown shape => exact ⟨_, rfl, by simp [shape]⟩

/-- Whenever an operation changes the chain, the chain gets longer and the file
has been replaced. -/
theorem Advance.stored {env : Environment} {node node' : Node} {tasks : List SyncTask} {file file' : ChainFile}
    {operation : Operation} {block : Option Block}
    (advance : Advance env node tasks file operation node' file' block) :
    (file' = .blocks node'.blockchain.chain ∧ node.blockchain.chain.length < node'.blockchain.chain.length) ∨
      file' = file ∧ node'.blockchain = node.blockchain ∧ node'.state = node.state ∧ block = none := by
  cases advance with
  | kept | admitted => exact Or.inr ⟨rfl, rfl, rfl, rfl⟩
  | received asked written attested future admissible settled =>
    have step : Settles node.ledger _ _ _ := admissible.settles settled
    have chain := step.chain
    simp only [Node.ledger] at chain
    exact Or.inl ⟨rfl, by simp [chain]⟩
  | produced timely prepared =>
    have chain := (prepared.admissible.settles prepared.settled).chain
    simp only [Node.ledger] at chain
    exact Or.inl ⟨rfl, by simp [chain]⟩
  | synchronized _ _ asked completes written judged longer first rooted grown chain =>
    exact Or.inl ⟨rfl, by simp only [chain]; exact longer⟩
  | adopted member longer => exact Or.inl ⟨rfl, longer⟩

theorem Advance.length_le {env : Environment} {node node' : Node} {tasks : List SyncTask} {file file' : ChainFile}
    {operation : Operation} {block : Option Block}
    (advance : Advance env node tasks file operation node' file' block) :
    node.blockchain.chain.length ≤ node'.blockchain.chain.length := by
  rcases advance.stored with ⟨_, longer⟩ | ⟨_, same, _⟩
  · exact longer.le
  · rw [same]

theorem Advance.storedLength {env : Environment} {node node' : Node} {tasks : List SyncTask}
    {file file' : ChainFile} {operation : Operation} {block : Option Block}
    (advance : Advance env node tasks file operation node' file' block) (before : StoredLength file node) :
    StoredLength file' node' := by
  rcases advance.stored with ⟨stored, _⟩ | ⟨sameFile, sameChain, _⟩
  · exact ⟨_, stored, rfl⟩
  · obtain ⟨chain, stored, length⟩ := before
    exact ⟨chain, sameFile.trans stored, by rw [length, sameChain]⟩

theorem Machine.run_first_start (keystore : KeystoreAnswer) (clock : Nat → SystemTime) {identity : Option Wallet}
    (unlocked : keystore canonical.consensus canonical.genesisFingerprint = .ok (false, identity)) :
    (Machine.idle .missing).run [.initializeAt keystore { clock, answer := .ok () }] =
      { process := some (Process.start canonicalCandidate identity), file := .blocks [canonicalGenesis],
        released := [] } := by
  unfold Machine.run runFrom
  simp only [List.foldl_cons, List.foldl_nil]
  unfold Machine.step
  dsimp only [Machine.idle]
  rw [NodeRuntime.initializeAt_missing unlocked]
  rfl

/-- What holds of a data directory and the process on it. -/
structure Machine.Sound (good : Block → Prop) (machine : Machine) : Prop where
  canonical : ∀ process, machine.process = some process → process.Canonical good
  stored : ∀ process, machine.process = some process → StoredLength machine.file process.node

theorem Machine.Sound.idle (good : Block → Prop) (file : ChainFile) : (Machine.idle file).Sound good :=
  ⟨by simp [Machine.idle], by simp [Machine.idle]⟩

theorem Machine.Sound.step {good : Block → Prop} {machine : Machine} {event : MachineEvent}
    (before : machine.Sound good) (yields : event.env.Yields good) : (machine.step event).Sound good := by
  obtain ⟨process, file, released⟩ := machine
  cases process with
  | none =>
    cases event with
    | initializeAt keystore env =>
      rcases NodeRuntime.initializeAt_cases keystore env file with ⟨fault, run⟩ | ⟨runtime, file', run, restored⟩
      · unfold Machine.step
        dsimp only
        rw [run]
        exact ⟨by simp [Machine.started], by simp [Machine.started]⟩
      · unfold Machine.step
        dsimp only
        rw [run]
        refine ⟨?_, ?_⟩
        · rintro _ ⟨⟩
          exact restored.canonical yields
        · rintro _ ⟨⟩
          exact restored.stored
    | perform | crash => exact before
    | crashInitializeAt keystore env written =>
      unfold Machine.step
      dsimp only
      split
      · exact ⟨by simp, by simp⟩
      · exact before
  | some process =>
    cases event with
    | perform env operation =>
      refine ⟨?_, ?_⟩
      · rintro _ ⟨⟩
        exact (before.canonical process rfl).perform yields operation file
      · rintro _ ⟨⟩
        exact (Process.perform_advances env operation file (before.canonical process rfl).admitted).storedLength
          (before.stored process rfl)
    | crash env operation written =>
      unfold Machine.step
      dsimp only
      split
      · exact ⟨by simp, by simp⟩
      · exact ⟨by simp, by simp⟩
    | initializeAt | crashInitializeAt => exact before

/-- Every run of a machine, on whatever its directory held at first. -/
theorem Machine.run_sound_of_yields {good : Block → Prop} (file : ChainFile) (events : List MachineEvent)
    (yields : ∀ event ∈ events, event.env.Yields good) : ((Machine.idle file).run events).Sound good := by
  have along : Along Machine.step (fun _ event => event.env.Yields good) (Machine.idle file) events :=
    .of_mem fun _ event member => yields event member
  exact along.invariant (fun machine => machine.Sound good) (fun _ _ before good => before.step good)
    (.idle good file)

theorem Machine.run_sound (file : ChainFile) (events : List MachineEvent) :
    ((Machine.idle file).run events).Sound fun _ => True :=
  run_sound_of_yields file events fun _ _ _ _ _ => trivial

end Kybernetes
