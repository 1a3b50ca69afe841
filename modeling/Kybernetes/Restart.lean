import Kybernetes.ChainValidity
import Kybernetes.TransactionHistory

namespace Kybernetes

open Bootstrap
open Process (canonicalCandidate)

section

variable [Crypto]

/-- No reading of the first environment is after one of the second. -/
def Environment.Before (earlier later : Environment) : Prop :=
  ∀ i j, earlier.clock i ≤ later.clock j

omit [Crypto] in
/-- A time that passes the future check passes it ever after. -/
theorem validateFutureTimestamp_mono {earlier later : SystemTime} {timestamp : UInt64} (ordered : earlier ≤ later)
    (passes : Blockchain.validateFutureTimestamp earlier timestamp = .ok ()) :
    Blockchain.validateFutureTimestamp later timestamp = .ok () := by
  simp only [Blockchain.validateFutureTimestamp, Blockchain.currentUnixTimestamp, bind_eq_ok, rejectIf_eq_ok,
    okOr_eq_ok, Option.map_eq_some_iff, checkedAdd_eq_some] at passes ⊢
  obtain ⟨now, ⟨seconds, rfl, rfl⟩, bound, sum, within⟩ := passes
  cases later with
  | none => simp at ordered
  | some seconds' =>
    have less : seconds.val ≤ seconds'.val := by simpa using ordered
    have small := seconds.isLt
    have small' := seconds'.isLt
    have value : (UInt64.ofNat seconds.val).toNat = seconds.val :=
      UInt64.toNat_ofNat_of_lt' (Nat.lt_trans small (by decide))
    have value' : (UInt64.ofNat seconds'.val).toNat = seconds'.val :=
      UInt64.toNat_ofNat_of_lt' (Nat.lt_trans small' (by decide))
    have drift : maxFutureDriftSeconds.toNat ≤ 2 ^ 62 := by decide
    have total : (UInt64.ofNat (seconds'.val + maxFutureDriftSeconds.toNat)).toNat =
        seconds'.val + maxFutureDriftSeconds.toNat :=
      UInt64.toNat_ofNat_of_lt' (by rw [UInt64.size]; omega)
    refine ⟨_, ⟨seconds', rfl, rfl⟩, UInt64.ofNat (seconds'.val + maxFutureDriftSeconds.toNat),
      by rw [value', total], ?_⟩
    rw [UInt64.lt_iff_toNat_lt] at within ⊢
    omega

/-- The block is attested, and its time passes at every reading. -/
def Replayable (clock : Nat → SystemTime) (block : Block) : Prop :=
  block.Attested ∧ ∀ reading, Blockchain.validateFutureTimestamp (clock reading) block.timestamp = .ok ()

/-- What was accepted or produced before can be replayed after. -/
theorem Environment.Before.yields {earlier later : Environment} (ordered : earlier.Before later)
    (lawful : SignaturesVerify) : earlier.Yields (Replayable later.clock) := by
  intro block ⟨reading, passes⟩ origin
  exact ⟨earlier.yields_attested lawful block ⟨reading, passes⟩ origin,
    fun reading' => validateFutureTimestamp_mono (ordered reading reading') passes⟩

namespace Node

theorem rebuildChain_concat_eq_ok {node : Node} {clock : Nat → SystemTime} {start middle after : Ledger}
    {rest : List Block} {block : Block} (run : node.rebuildChain clock start.1 start.2 rest = .ok middle)
    (step : node.validateAndApplyBlock (clock rest.length) block middle.1 middle.2 = .ok after) :
    node.rebuildChain clock start.1 start.2 (rest ++ [block]) = .ok after := by
  induction rest generalizing clock start with
  | nil =>
    cases run
    simp only [List.nil_append, rebuildChain, bind_eq_ok]
    exact ⟨after, step, rfl⟩
  | cons first rest ih =>
    simp only [List.cons_append, rebuildChain, bind_eq_ok] at run ⊢
    obtain ⟨next, head, tail⟩ := run
    exact ⟨next, head, ih tail step⟩

/-- Replaying the blocks that a ledger grew by gives the ledger back. -/
theorem rebuildChain_of_grown {node : Node} {clock : Nat → SystemTime} {start ledger : Ledger}
    (grown : Grown node.consensus (Replayable clock) start ledger) :
    ∃ rest, ledger.1.chain = start.1.chain ++ rest ∧
      node.rebuildChain clock start.1 start.2 rest = .ok ledger := by
  induction grown with
  | start => exact ⟨[], by simp, rfl⟩
  | @block middle after block normals before accepted admissible settled ih =>
    obtain ⟨rest, shape, run⟩ := ih
    have extended : after.1.chain = middle.1.chain ++ [block] := (admissible.settles settled).chain
    refine ⟨rest ++ [block], by rw [extended, shape, List.append_assoc], rebuildChain_concat_eq_ok run ?_⟩
    exact validateAndApplyBlock_eq_ok.mpr ⟨accepted.1, accepted.2 _, normals, admissible, settled⟩

end Node

/-- The canonical node judges the chain of a descendant and finds its ledger. -/
theorem Descends.judgeChain {clock : Nat → SystemTime} {ledger : Ledger}
    (descends : Descends (Replayable clock) ledger) (longer : 1 < ledger.1.chain.length) :
    canonicalCandidate.judgeChain clock ledger.1.chain = .ok (some ledger) := by
  obtain ⟨genesis, rooted, grown⟩ := descends
  have grown' : Grown canonicalCandidate.consensus (Replayable clock) (canonicalLedger genesis) ledger := grown
  obtain ⟨rest, shape, run⟩ := Node.rebuildChain_of_grown grown'
  have whole : ledger.1.chain = genesis :: rest := shape
  rw [whole] at longer ⊢
  have single : canonicalCandidate.blockchain.chain = [canonicalGenesis] := rfl
  simp only [Node.judgeChain, bind_eq_ok, rejectIf_eq_ok, exists_const, single, List.length_singleton]
  rw [if_neg (by omega)]
  simp only [bind_eq_ok, rejectIf_eq_ok, okOr_eq_ok, exists_const, List.head?_cons, List.tail_cons]
  refine ⟨by simp, by omega, _, rfl, _, rfl, not_not.mpr rooted.index, not_not.mpr rooted.previousHash,
    not_not.mpr rooted.hash, not_not.mpr rooted.same, ledger, run, rfl⟩

theorem canonicalGenesis_judged (clock : Nat → SystemTime) :
    canonicalCandidate.judgeChain clock [canonicalGenesis] = .ok none := by
  have valid : Blockchain.isValid { chain := [canonicalGenesis], economy := canonicalEconomy } = true :=
    Rooted.refl_canonical.isValid canonicalGenesis_sizes
  refine Node.judgeChain_eq_none.mpr ⟨List.cons_ne_nil _ _, rfl, Node.checkEqualLengthChain_eq_ok.mpr ?_⟩
  exact ⟨canonicalGenesis, canonicalGenesis, canonicalGenesis, canonicalGenesis, rfl, rfl, rfl, valid, rfl, rfl, rfl⟩

/-- A start with the answers of an environment gives back the ledger of a
node, or the start's own write failed and the file is as it was. -/
def Restarts (keystore : KeystoreAnswer) (env : Environment) (file : ChainFile) (node : Node) : Prop :=
  (∃ runtime, NodeRuntime.initializeAt keystore env.clock env.answer file = (.ok runtime, file) ∧
    runtime.node.blockchain = node.blockchain ∧ runtime.node.state = node.state) ∨
  ∃ error fault, env.answer = .error error ∧
    NodeRuntime.initializeAt keystore env.clock env.answer file = (.error fault, file)

/-- The keystore of the directory can be read with the password of the start. -/
def Unlocks (keystore : KeystoreAnswer) : Prop :=
  ∃ answer, keystore canonical.consensus canonical.genesisFingerprint = .ok answer

/-- The chain is the canonical genesis alone or has further blocks. -/
def Settled (chain : List Block) : Prop :=
  chain = [canonicalGenesis] ∨ 1 < chain.length

/-- A descending ledger with one block is the canonical one. -/
theorem Descends.eq_start {good : Block → Prop} {ledger : Ledger} (descends : Descends good ledger)
    (single : ledger.1.chain = [canonicalGenesis]) : ledger = canonicalLedger canonicalGenesis := by
  obtain ⟨genesis, rooted, grown⟩ := descends
  cases grown with
  | start =>
    have same : [genesis] = [canonicalGenesis] := single
    rw [List.singleton_inj.mp same]
  | block before accepted admissible settled =>
    have longer := before.length_le
    rw [(admissible.settles settled).chain] at single
    have length := congrArg List.length single
    simp only [canonicalLedger, List.length_append, List.length_singleton] at length longer
    omega

theorem Descends.restarts {keystore : KeystoreAnswer} {env : Environment} {node : Node} (unlocks : Unlocks keystore)
    (descends : Descends (Replayable env.clock) node.ledger) (settled : Settled node.blockchain.chain) :
    Restarts keystore env (.blocks node.blockchain.chain) node := by
  obtain ⟨⟨locked, identity⟩, unlocked⟩ := unlocks
  have candidate : Node.new canonical.blockchain canonical.state canonical.consensus = canonicalCandidate := rfl
  have nonempty : node.blockchain.chain ≠ [] := List.ne_nil_of_length_pos descends.length_pos
  unfold Restarts NodeRuntime.initializeAt
  rw [canonicalBootstrap_eq]
  dsimp only
  rw [unlocked, candidate]
  dsimp only
  rw [Storage.loadBlockchainFrom, if_neg nonempty]
  dsimp only
  unfold Node.restoreChainFromStorage Node.synchronizeChain
  rcases settled with single | longer
  · rw [single, canonicalGenesis_judged]
    have start := descends.eq_start single
    simp only [Node.ledger, canonicalLedger, Prod.mk.injEq] at start
    exact Or.inl ⟨_, rfl, start.1.symm, start.2.symm⟩
  · have judged := descends.judgeChain longer
    simp only [Node.ledger] at judged
    rw [judged]
    dsimp only
    cases written : env.answer with
    | ok =>
      rw [saveBlockchainTo_ok nonempty]
      exact Or.inl ⟨_, rfl, rfl, rfl⟩
    | error error =>
      unfold Storage.saveBlockchainTo
      rw [if_neg nonempty]
      exact Or.inr ⟨error, _, rfl, rfl⟩

omit [Crypto] in
/-- The blocks that a chain file holds. -/
def ChainFile.held : ChainFile → List Block
  | .blocks chain => chain
  | _ => []

/-- The single block of a chain that passes for the canonical one is it. -/
theorem eq_canonicalGenesis {chain : List Block} (single : chain.length = 1)
    (equal : canonicalCandidate.checkEqualLengthChain chain = .ok ())
    (free : CollisionFree (hashedData (canonicalGenesis :: chain))) : chain = [canonicalGenesis] := by
  obtain ⟨genesis, rfl⟩ := List.length_eq_one_iff.mp single
  obtain ⟨_, _, _, _, last, last', same, alone, _⟩ := Node.checkEqualLengthChain_eq_ok.mp equal
  cases last
  cases last'
  have valid := Blockchain.isValid_singleton.mp alone
  have rooted : Rooted canonicalGenesis genesis := ⟨valid.index, valid.linked, valid.hash, same⟩
  have unsigned := (validateBlockFieldSizes_genesis rooted.index valid.sizes).1
  rw [rooted.eq_canonical (free.mono ?_), unsigned]
  · rfl
  · rintro data (rfl | rfl)
    · exact ⟨canonicalGenesis, by simp, rfl⟩
    · exact ⟨genesis, by simp, rfl⟩

/-- The file holds the chain in memory, and a directory without a process
holds what it held at first or a chain that was stored since. -/
structure Machine.Stores (initial : ChainFile) (machine : Machine) : Prop where
  running : ∀ process, machine.process = some process →
    machine.file = .blocks process.node.blockchain.chain ∧ Settled process.node.blockchain.chain
  file : machine.file = initial ∨ ∃ chain, machine.file = .blocks chain ∧ Settled chain

/-- A start takes over the stored chain as it stands. -/
theorem Restored.stores {env : Environment} {initial file file' : ChainFile} {node : Node}
    (restored : Restored env file node file') (free : CollisionFree (hashedData (canonicalGenesis :: initial.held)))
    (before : file = initial ∨ ∃ chain, file = .blocks chain ∧ Settled chain) :
    file' = .blocks node.blockchain.chain ∧ Settled node.blockchain.chain := by
  cases restored with
  | fresh => exact ⟨rfl, Or.inl rfl⟩
  | @genesis chain single equal =>
    have same : chain = [canonicalGenesis] := by
      rcases before with rfl | ⟨_, ⟨⟩, same | longer⟩
      · exact eq_canonicalGenesis single equal free
      · exact same
      · omega
    rw [same]
    exact ⟨rfl, Or.inl rfl⟩
  | chain longer judged rooted grown shape =>
    dsimp only
    rw [shape]
    refine ⟨rfl, Or.inr ?_⟩
    rw [List.length_cons]
    omega

/-- An operation keeps the file equal to the chain in memory. -/
theorem Advance.stores {env : Environment} {node node' : Node} {tasks : List SyncTask} {file file' : ChainFile}
    {operation : Operation} {block : Option Block}
    (advance : Advance env node tasks file operation node' file' block)
    (before : file = .blocks node.blockchain.chain ∧ Settled node.blockchain.chain)
    (nonempty : 0 < node.blockchain.chain.length) :
    file' = .blocks node'.blockchain.chain ∧ Settled node'.blockchain.chain := by
  rcases advance.stored with ⟨stored, longer⟩ | ⟨sameFile, same, _⟩
  · exact ⟨stored, Or.inr (by omega)⟩
  · rw [sameFile, same]
    exact before

theorem Machine.Stores.step {initial : ChainFile} {machine : Machine} {event : MachineEvent}
    (free : CollisionFree (hashedData (canonicalGenesis :: initial.held))) (sound : machine.Sound fun _ => True)
    (before : machine.Stores initial) : (machine.step event).Stores initial := by
  obtain ⟨process, file, released⟩ := machine
  have idle : ∀ {file' : ChainFile} {released' : List Block},
      (file' = initial ∨ ∃ chain, file' = .blocks chain ∧ Settled chain) →
        Machine.Stores initial { process := none, file := file', released := released' } :=
    fun held => ⟨by simp, held⟩
  cases process with
  | none =>
    cases event with
    | initializeAt keystore env =>
      rcases NodeRuntime.initializeAt_cases keystore env file with ⟨fault, run⟩ | ⟨runtime, file', run, restored⟩
      · unfold Machine.step
        dsimp only
        rw [run]
        exact idle before.file
      · unfold Machine.step
        dsimp only
        rw [run]
        have stores := restored.stores free before.file
        refine ⟨?_, Or.inr ⟨_, stores⟩⟩
        rintro _ ⟨⟩
        exact stores
    | crashInitializeAt keystore env written =>
      unfold Machine.step
      dsimp only
      split
      · rcases NodeRuntime.initializeAt_cases keystore env file with ⟨fault, run⟩ | ⟨runtime, file', run, restored⟩
        · rw [run]
          exact idle before.file
        · rw [run]
          exact idle (Or.inr ⟨_, restored.stores free before.file⟩)
      · exact before
    | perform | crash => exact before
  | some process =>
    have canonical := sound.canonical process rfl
    have stores := fun env operation => (Process.perform_advances env operation file canonical.admitted).stores
      (before.running process rfl) canonical.descends.length_pos
    cases event with
    | perform env operation =>
      refine ⟨?_, Or.inr ⟨_, stores env operation⟩⟩
      rintro _ ⟨⟩
      exact stores env operation
    | crash env operation written =>
      unfold Machine.step
      dsimp only
      split
      · exact idle (Or.inr ⟨_, stores env operation⟩)
      · exact idle before.file
    | initializeAt | crashInitializeAt => exact before

theorem Machine.step_crash {machine : Machine} {process : Process} (running : machine.process = some process)
    (env : Environment) (operation : Operation) (written : Bool) :
    (machine.step (.crash env operation written)).file =
      if written = true then (process.perform env operation machine.file).file else machine.file := by
  obtain ⟨_, file, released⟩ := machine
  cases running
  unfold Machine.step
  dsimp only
  split <;> rfl

/-- After every operation the stored chain is the one in memory, and a start
that comes later gives back the same chain, accounts and economy. When the
process dies in an operation, it gives back the ledger from before the
operation or the one from after it. -/
theorem Machine.run_restarts (lawful : SignaturesVerify) (file : ChainFile) (events : List MachineEvent)
    (free : CollisionFree (hashedData (canonicalGenesis :: file.held))) (process : Process)
    (running : ((Machine.idle file).run events).process = some process) :
    let machine := (Machine.idle file).run events
    machine.file = .blocks process.node.blockchain.chain ∧
      ∀ keystore later, Unlocks keystore → (∀ event ∈ events, event.env.Before later) →
        Restarts keystore later machine.file process.node ∧
        ∀ env operation written, env.Before later →
          let crashed := (machine.step (.crash env operation written)).file
          let performed := (process.perform env operation machine.file).process
          Restarts keystore later crashed process.node ∨ Restarts keystore later crashed performed.node := by
  intro machine
  let inv := fun machine : Machine => machine.Sound (fun _ => True) ∧ machine.Stores file
  have start : inv (Machine.idle file) := ⟨.idle _ file, by simp [Machine.idle], Or.inl rfl⟩
  obtain ⟨sound, stores⟩ : inv machine := runFrom_invariant inv
    (fun _ _ before => ⟨before.1.step fun _ _ _ => trivial, before.2.step free before.1⟩) start events
  obtain ⟨stored, settled⟩ := stores.running process running
  refine ⟨stored, fun keystore later unlocks ordered => ?_⟩
  -- what was accepted before the restart can be replayed at its time
  have replayable : ((Machine.idle file).run events).Sound (Replayable later.clock) :=
    run_sound_of_yields file events fun event member => (ordered event member).yields lawful
  have canonical := replayable.canonical process running
  have same : Restarts keystore later machine.file process.node := by
    rw [stored]
    exact canonical.descends.restarts unlocks settled
  refine ⟨same, fun env operation written before => ?_⟩
  intro crashed performed
  have file' : crashed = _ := Machine.step_crash running env operation written
  cases written with
  | false =>
    rw [file']
    exact Or.inl same
  | true =>
    have advance := Process.perform_advances env operation machine.file canonical.admitted
    obtain ⟨stored', settled'⟩ := advance.stores ⟨stored, settled⟩ canonical.descends.length_pos
    have canonical' := canonical.perform (before.yields lawful) operation machine.file
    rw [file', if_pos rfl, stored']
    exact Or.inr (canonical'.descends.restarts unlocks settled')

end

open Fixture in
/-- The directory of a first start meets the hypotheses. -/
theorem Fixture.first_start_restarts :
    let machine := (Machine.idle .missing).run [.initializeAt keystore env]
    machine.file = .blocks [canonicalGenesis] ∧ Restarts keystore env machine.file canonicalCandidate := by
  have free : CollisionFree (hashedData (canonicalGenesis :: ChainFile.missing.held)) :=
    .of_subsingleton (hashedData_subsingleton fun _ => List.mem_singleton.mp)
  have unlocks : Unlocks keystore := ⟨(false, none), rfl⟩
  obtain ⟨stored, restarts⟩ := Machine.run_restarts (CryptoTable.lawful table) .missing
    [.initializeAt keystore env] free _ Fixture.running
  refine ⟨stored, (restarts keystore env unlocks ?_).1⟩
  intro event member
  rw [List.mem_singleton.mp member]
  exact fun _ _ => by simp [MachineEvent.env, env, now]

end Kybernetes
