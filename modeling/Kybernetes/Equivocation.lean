import Kybernetes.Machines

namespace Kybernetes

variable [Crypto]

/-- The file holds a chain of at least the given length. -/
def HoldsAtLeast (length : Nat) (file : ChainFile) : Prop :=
  ∃ chain, file = .blocks chain ∧ length ≤ chain.length

/-- No two released blocks share an index, and the stored chain is longer than
every index that was released. -/
structure Unequivocal (file : ChainFile) (released : List Block) : Prop where
  distinct : released.Pairwise fun earlier later => earlier.index ≠ later.index
  behind : ∀ block ∈ released, HoldsAtLeast (block.index.toNat + 1) file

section Advance

variable {env : Environment} {node node' : Node} {tasks : List SyncTask} {file file' : ChainFile}
  {operation : Operation} {block : Block} {produced : Option Block}

/-- The stored chain never gets shorter. -/
theorem Advance.holdsAtLeast (advance : Advance env node tasks file operation node' file' produced)
    (stored : StoredLength file node) {length : Nat} (before : HoldsAtLeast length file) :
    HoldsAtLeast length file' := by
  obtain ⟨chain, held, same⟩ := stored
  obtain ⟨chain', held', bound⟩ := before
  cases held.symm.trans held'
  rcases advance.stored with ⟨replaced, _⟩ | ⟨kept, _⟩
  · have longer := advance.length_le
    exact ⟨_, replaced, by omega⟩
  · exact ⟨chain, kept.trans held, bound⟩

/-- The index of a produced block is the length of the chain it was built on,
and that chain with the block is stored. -/
theorem Advance.producedIndex (advance : Advance env node tasks file operation node' file' (some block))
    (short : node.blockchain.chain.length < 2 ^ 64) :
    block.index.toNat = node.blockchain.chain.length ∧ HoldsAtLeast (block.index.toNat + 1) file' := by
  cases advance with
  | @produced now timestamp wallet _ normals after mempool timely prepared =>
    have index : block.index.toNat = node.blockchain.chain.length := by
      rw [prepared.admissible.index]
      exact UInt64.toNat_ofNat_of_lt' short
    have extended : after.1.chain = node.blockchain.chain ++ [block] :=
      (prepared.admissible.settles prepared.settled).chain
    exact ⟨index, _, rfl, by rw [extended, index]; simp⟩

end Advance

omit [Crypto] in
/-- Every index released so far is below the length of the chain in memory, so
that length is a new index. -/
theorem Unequivocal.fresh {file : ChainFile} {released : List Block} {node : Node}
    (before : Unequivocal file released) (stored : StoredLength file node) {earlier : Block}
    (member : earlier ∈ released) : earlier.index.toNat < node.blockchain.chain.length := by
  obtain ⟨chain, held, same⟩ := stored
  obtain ⟨chain', held', bound⟩ := before.behind earlier member
  cases held.symm.trans held'
  omega

theorem Unequivocal.perform {good : Block → Prop} {process : Process} {file : ChainFile}
    {released : List Block} (before : Unequivocal file released) (canonical : process.Canonical good)
    (stored : StoredLength file process.node) (env : Environment) (operation : Operation) :
    Unequivocal (process.perform env operation file).file
      (released ++ (process.perform env operation file).produced.toList) := by
  have advance := Process.perform_advances env operation file canonical.admitted
  have short : process.node.blockchain.chain.length < 2 ^ 64 :=
    Nat.lt_of_le_of_lt canonical.descends.length_le (by decide)
  generalize (process.perform env operation file).file = file',
    (process.perform env operation file).produced = produced at advance ⊢
  cases produced with
  | none =>
    rw [Option.toList_none, List.append_nil]
    exact ⟨before.distinct, fun block member => advance.holdsAtLeast stored (before.behind block member)⟩
  | some block =>
    obtain ⟨index, held⟩ := advance.producedIndex short
    rw [Option.toList_some]
    refine ⟨List.pairwise_append.mpr ⟨before.distinct, List.pairwise_singleton _ _, ?_⟩, ?_⟩
    · intro earlier member later new same
      rw [List.mem_singleton.mp new] at same
      have below := before.fresh stored member
      rw [same, index] at below
      exact Nat.lt_irrefl _ below
    · intro other member
      rcases List.mem_append.mp member with old | new
      · exact advance.holdsAtLeast stored (before.behind other old)
      · rw [List.mem_singleton.mp new]
        exact held

/-- A start changes the file only where there was none, and then nothing was
released yet. -/
theorem Unequivocal.initializeAt {file : ChainFile} {released : List Block} (before : Unequivocal file released)
    (keystore : KeystoreAnswer) (env : Environment) :
    Unequivocal (NodeRuntime.initializeAt keystore env.clock env.answer file).2 released := by
  rcases NodeRuntime.initializeAt_cases keystore env file with ⟨fault, run⟩ | ⟨runtime, file', run, restored⟩
  · rw [run]
    exact before
  · rw [run]
    generalize runtime.node = node at restored
    cases restored with
    | genesis | chain => exact before
    | fresh =>
      refine ⟨before.distinct, fun block member => ?_⟩
      obtain ⟨chain, held, _⟩ := before.behind block member
      cases held

theorem Machine.Sound.unequivocal {machine : Machine} {event : MachineEvent}
    (sound : machine.Sound fun _ => True) (before : Unequivocal machine.file machine.released) :
    Unequivocal (machine.step event).file (machine.step event).released := by
  obtain ⟨process, file, released⟩ := machine
  cases process with
  | none =>
    cases event with
    | initializeAt keystore env =>
      have started := before.initializeAt keystore env
      unfold Machine.step
      dsimp only at started ⊢
      generalize NodeRuntime.initializeAt keystore env.clock env.answer file = start at started ⊢
      obtain ⟨result, file'⟩ := start
      cases result with
      | error => exact started
      | ok => exact started
    | crashInitializeAt keystore env written =>
      have started := before.initializeAt keystore env
      unfold Machine.step
      dsimp only at started ⊢
      generalize NodeRuntime.initializeAt keystore env.clock env.answer file = start at started ⊢
      split
      · exact started
      · exact before
    | perform | crash => exact before
  | some process =>
    have performed := before.perform (sound.canonical process rfl) (sound.stored process rfl)
    cases event with
    | perform env operation => exact performed env operation
    | crash env operation written =>
      unfold Machine.step
      dsimp only
      split
      · exact performed env operation
      · exact before
    | initializeAt | crashInitializeAt => exact before

/-- A validator never equivocates: over all starts, failed writes and crashes
on one directory, no two released blocks have the same index. -/
theorem Machine.run_never_equivocates (file : ChainFile) (events : List MachineEvent) :
    ((Machine.idle file).run events).released.Pairwise fun earlier later => earlier.index ≠ later.index := by
  let inv := fun machine : Machine => machine.Sound (fun _ => True) ∧ Unequivocal machine.file machine.released
  have start : inv (Machine.idle file) := ⟨.idle _ file, List.Pairwise.nil, by simp [Machine.idle]⟩
  have reached : inv ((Machine.idle file).run events) := runFrom_invariant inv
    (fun machine event before => ⟨before.1.step fun _ _ _ => trivial, before.1.unequivocal before.2⟩) start events
  exact reached.2.distinct

end Kybernetes
