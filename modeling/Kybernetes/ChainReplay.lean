import Kybernetes.HistoryCommitment
import Kybernetes.ReplayPaths
import Kybernetes.TipCommitment

namespace Kybernetes

open Bootstrap

section

variable [Crypto]

namespace Node

variable {node : Node} {clock clock' : Nat → SystemTime} {start after : Ledger} {first second : List Block}

/-- Blocks can be replayed in portions. -/
theorem rebuildChain_append_eq_ok :
    node.rebuildChain clock start.1 start.2 (first ++ second) = .ok after ↔
      ∃ middle : Ledger, node.rebuildChain clock start.1 start.2 first = .ok middle ∧
        node.rebuildChain (fun reading => clock (reading + first.length)) middle.1 middle.2 second = .ok after := by
  induction first generalizing clock start with
  | nil =>
    simp only [List.nil_append, rebuildChain, Except.ok.injEq, exists_eq_left', List.length_nil, Nat.add_zero]
  | cons block rest ih =>
    simp only [List.cons_append, rebuildChain, bind_eq_ok]
    constructor
    · rintro ⟨next, step, run⟩
      obtain ⟨middle, front, back⟩ := ih.mp run
      refine ⟨middle, ⟨next, step, front⟩, ?_⟩
      simpa only [List.length_cons, Nat.add_assoc, Nat.add_comm 1] using back
    · rintro ⟨middle, ⟨next, step, front⟩, back⟩
      refine ⟨next, step, ih.mpr ⟨middle, front, ?_⟩⟩
      simpa only [List.length_cons, Nat.add_assoc, Nat.add_comm 1] using back

/-- The time at which blocks are replayed plays no part as long as it is late
enough. -/
theorem rebuildChain_reclock (run : node.rebuildChain clock start.1 start.2 first = .ok after)
    (passes : ∀ block ∈ first, ∀ reading,
      Blockchain.validateFutureTimestamp (clock' reading) block.timestamp = .ok ()) :
    node.rebuildChain clock' start.1 start.2 first = .ok after := by
  induction first generalizing clock clock' start with
  | nil => exact run
  | cons block rest ih =>
    simp only [rebuildChain, bind_eq_ok] at run ⊢
    obtain ⟨next, step, later⟩ := run
    obtain ⟨attested, _, normals, admissible, settled⟩ := validateAndApplyBlock_eq_ok.mp step
    refine ⟨next, validateAndApplyBlock_eq_ok.mpr
      ⟨attested, passes block (by simp) 0, normals, admissible, settled⟩, ih later fun other member reading => ?_⟩
    exact passes other (by simp [member]) (reading + 1)

end Node

namespace Blockchain

variable {chain whole : List Block} {economy : Economy} {block : Block}

theorem isValid_prefix (front : chain <+: whole) (valid : isValid { chain := whole, economy } = true) :
    isValid { chain, economy } = true := by
  obtain ⟨rest, rfl⟩ := front
  induction rest using List.reverseRecOn with
  | nil => simpa using valid
  | append_singleton before tip ih =>
    rw [← List.append_assoc] at valid
    exact ih ((isValid_concat economy economy).mp valid).1

theorem checkLinkage_attested {previous : Block} (linked : checkLinkage previous block = true) : block.Attested := by
  unfold checkLinkage at linked
  split at linked
  · cases linked
  split at linked
  · cases linked
  split at linked
  · cases linked
  split at linked
  · cases linked
  rename_i derived
  split at linked
  · cases linked
  rename_i same
  split at linked
  · cases linked
  rename_i signature signed
  rw [not_not] at same
  exact ⟨by rw [derived, same], signature, signed, linked⟩

/-- `is_valid` verifies the signature of every block behind the first. -/
theorem isValid_attested (valid : isValid { chain, economy } = true) (member : block ∈ chain.tail) :
    block.Attested := by
  induction chain using List.reverseRecOn with
  | nil => simp at member
  | append_singleton before tip ih =>
    obtain ⟨front, tipValid⟩ := (isValid_concat economy economy).mp valid
    cases last : before.getLast? with
    | none => simp [List.getLast?_eq_none_iff.mp last] at member
    | some previous =>
      have nonempty : before ≠ [] := List.ne_nil_of_mem (List.mem_of_getLast? last)
      rw [List.tail_append_of_ne_nil nonempty] at member
      rcases List.mem_append.mp member with earlier | latest
      · exact ih front earlier
      · rw [List.mem_singleton.mp latest]
        have linked := tipValid.linked
        rw [last] at linked
        exact checkLinkage_attested linked

end Blockchain

/-- The ledgers differ in nothing but signatures of validators. -/
structure Ledger.Agrees (ledger other : Ledger) : Prop where
  chain : List.Forall₂ Block.Agrees ledger.1.chain other.1.chain
  economy : ledger.1.economy = other.1.economy
  state : ledger.2 = other.2

namespace Ledger.Agrees

variable {ledger other after' : Ledger} {block : Block} {normals : List Transaction}

omit [Crypto] in
/-- Whatever does not look at signatures cannot tell the chains apart. -/
theorem map_eq (agrees : ledger.Agrees other) {β : Type} (f : Block → β)
    (blind : ∀ block signature, f { block with validatorSignature := signature } = f block) :
    ledger.1.chain.map f = other.1.chain.map f := by
  have equal : List.Forall₂ (fun a b => f a = f b) ledger.1.chain other.1.chain := by
    refine agrees.chain.imp fun a b same => ?_
    rw [same]
    exact blind b _
  rw [← List.forall₂_eq_eq_eq, List.forall₂_map_left_iff, List.forall₂_map_right_iff]
  exact equal

theorem admissible {consensus : Consensus} (agrees : ledger.Agrees other)
    (admissible : Admissible consensus other.1 block normals) : Admissible consensus ledger.1 block normals := by
  obtain ⟨tip, last, link, later⟩ := admissible.follows
  have tips : ledger.1.chain.getLast?.map (fun b => (b.hash, b.timestamp)) = some (tip.hash, tip.timestamp) := by
    rw [← List.getLast?_map, agrees.map_eq _ fun _ _ => rfl, List.getLast?_map, last, Option.map_some]
  obtain ⟨tip', last', same⟩ := Option.map_eq_some_iff.mp tips
  obtain ⟨hash, timestamp⟩ := Prod.mk.inj same
  have transactions : ledger.1.transactions = other.1.transactions := by
    unfold Blockchain.transactions
    rw [List.flatMap_def, List.flatMap_def, agrees.map_eq Block.transactions fun _ _ => rfl]
  constructor
  case transactions => rw [agrees.economy]; exact admissible.transactions
  case genuine => rw [agrees.economy]; exact admissible.genuine
  case index => rw [agrees.chain.length_eq]; exact admissible.index
  case follows => exact ⟨tip', last', by rw [link, hash], by rw [timestamp]; exact later⟩
  case fresh => rw [transactions]; exact admissible.fresh
  case nonempty => exact admissible.nonempty
  case count => exact admissible.count
  case index_ne => exact admissible.index_ne
  case hash => exact admissible.hash
  case previousHash_fixed => exact admissible.previousHash_fixed
  case validator_fixed => exact admissible.validator_fixed
  case publicKey_fixed => exact admissible.publicKey_fixed
  case signature_fixed => exact admissible.signature_fixed
  case selected => exact admissible.selected
  case distinct => exact admissible.distinct

theorem settle (agrees : ledger.Agrees other) (run : other.settle block normals = .ok after') :
    ∃ after, ledger.settle block normals = .ok after ∧ Ledger.Agrees after after' := by
  simp only [Ledger.settle, bind_eq_ok, pure_eq_ok, agrees.economy, agrees.state] at run ⊢
  obtain ⟨paid, batch, totals, charged, credited, credit, minted, mint, rewarded, reward, rfl⟩ := run
  refine ⟨_, ⟨paid, batch, totals, charged, credited, credit, minted, mint, rewarded, reward, rfl⟩, ?_, rfl, rfl⟩
  exact List.rel_append agrees.chain (.cons (.refl block) .nil)

theorem rebuildChain {node : Node} {clock : Nat → SystemTime} {blocks : List Block} (agrees : ledger.Agrees other)
    (run : node.rebuildChain clock other.1 other.2 blocks = .ok after') :
    ∃ after, node.rebuildChain clock ledger.1 ledger.2 blocks = .ok after ∧ Ledger.Agrees after after' := by
  induction blocks generalizing ledger other clock with
  | nil =>
    cases run
    exact ⟨_, rfl, agrees⟩
  | cons block rest ih =>
    simp only [Node.rebuildChain, bind_eq_ok] at run ⊢
    obtain ⟨next, step, later⟩ := run
    obtain ⟨attested, future, normals, accepted, settled⟩ := Node.validateAndApplyBlock_eq_ok.mp step
    obtain ⟨next', settled', agrees'⟩ := agrees.settle settled
    obtain ⟨after, run', final⟩ := ih agrees' later
    exact ⟨after, ⟨next', Node.validateAndApplyBlock_eq_ok.mpr
      ⟨attested, future, normals, agrees.admissible accepted, settled'⟩, run'⟩, final⟩

end Ledger.Agrees

theorem Grown.strengthen {consensus : Consensus} {good good' : Block → Prop} {start ledger : Ledger}
    (grown : Grown consensus good start ledger)
    (each : ∀ block ∈ ledger.1.chain.drop start.1.chain.length, good' block) : Grown consensus good' start ledger := by
  induction grown with
  | start => exact .start
  | @block before after block normals front accepted admissible settled ih =>
    have shape : after.1.chain = before.1.chain ++ [block] := (admissible.settles settled).chain
    rw [shape, List.drop_append_of_le_length front.length_le] at each
    exact .block (ih fun other member => each other (List.mem_append_left _ member)) (each block (by simp)) admissible
      settled

/-- A valid chain of a reachable node can be replayed from the canonical
genesis at any time that is late enough. -/
theorem Descends.replays {good : Block → Prop} {ledger : Ledger} {clock : Nat → SystemTime}
    (descends : Descends good ledger) (valid : ledger.1.isValid = true)
    (free : CollisionFree (hashedData (canonicalGenesis :: ledger.1.chain)))
    (passes : ∀ block ∈ ledger.1.chain, ∀ reading,
      Blockchain.validateFutureTimestamp (clock reading) block.timestamp = .ok ()) :
    ∃ rest, ledger.1.chain = canonicalGenesis :: rest ∧
      Process.canonicalCandidate.rebuildChain clock (canonicalLedger canonicalGenesis).1
        (canonicalLedger canonicalGenesis).2 rest = .ok ledger := by
  obtain ⟨genesis, rooted, grown⟩ := descends
  obtain ⟨added, shape, _⟩ := grown.chain
  have chain : ledger.1.chain = genesis :: added := shape
  have unsigned : genesis.validatorSignature = none := by
    have front : [genesis] <+: ledger.1.chain := ⟨added, by rw [chain]; rfl⟩
    have alone : Blockchain.isValid { chain := [genesis], economy := ledger.1.economy } = true :=
      Blockchain.isValid_prefix front valid
    exact (validateBlockFieldSizes_genesis rooted.index (Blockchain.isValid_singleton.mp alone).sizes).1
  have canonical : genesis = canonicalGenesis := by
    refine (rooted.eq_canonical (free.mono ?_)).trans (by rw [unsigned]; rfl)
    rintro data (rfl | rfl)
    · exact ⟨canonicalGenesis, by simp, rfl⟩
    · exact ⟨genesis, by simp [chain], rfl⟩
  rw [canonical] at grown chain
  have replayable : Grown Process.canonicalCandidate.consensus (Replayable clock) (canonicalLedger canonicalGenesis)
      ledger := by
    refine grown.strengthen fun block member => ⟨?_, passes block (List.mem_of_mem_drop member)⟩
    refine Blockchain.isValid_attested valid ?_
    rw [← List.drop_one]
    exact member
  obtain ⟨rest, shape', run⟩ := Node.rebuildChain_of_grown replayable
  exact ⟨rest, shape', run⟩

/-- A chain that ends in the hash that another one has at that height goes on
as the other one does. -/
theorem Descends.continues {good : Block → Prop} {ledger other : Ledger} {clock : Nat → SystemTime}
    (descends : Descends good ledger) (descends' : Descends good other) (valid : ledger.1.isValid = true)
    (valid' : other.1.isValid = true)
    (free : CollisionFree (hashedData (canonicalGenesis :: (ledger.1.chain ++ other.1.chain))))
    (passes : ∀ block ∈ other.1.chain, ∀ reading,
      Blockchain.validateFutureTimestamp (clock reading) block.timestamp = .ok ())
    (tips : ledger.1.chain.getLast?.map Block.hash =
      (other.1.chain.take ledger.1.chain.length).getLast?.map Block.hash) :
    ledger.1.chain.map Block.hash = (other.1.chain.take ledger.1.chain.length).map Block.hash ∧
      ∃ after, Process.canonicalCandidate.rebuildChain clock ledger.1 ledger.2
        (other.1.chain.drop ledger.1.chain.length) = .ok after := by
  have positive := descends.length_pos
  generalize height : ledger.1.chain.length = h at tips positive ⊢
  obtain ⟨rest, shape, run⟩ := descends'.replays valid' (free.mono
    (hashedData_mono (List.cons_subset_cons _ (List.subset_append_right _ _)))) passes
  obtain ⟨k, rfl⟩ : ∃ k, h = k + 1 := ⟨h - 1, by omega⟩
  rw [← List.take_append_drop k rest] at run
  obtain ⟨middle, front, back⟩ := Node.rebuildChain_append_eq_ok.mp run
  obtain ⟨grown, chain⟩ := Node.rebuildChain_grown front
  have taken : middle.1.chain = other.1.chain.take (k + 1) := by
    rw [chain, shape]
    rfl
  have wellFormed : Blockchain.isValid { chain := other.1.chain.take (k + 1), economy := other.1.economy } = true :=
    Blockchain.isValid_prefix (List.take_prefix _ _) valid'
  have agree : List.Forall₂ Block.Agrees ledger.1.chain (other.1.chain.take (k + 1)) := by
    refine Blockchain.tip_commits_to_history ledger.1.economy other.1.economy (free.mono ?_) valid wellFormed tips
    refine hashedData_mono (List.subset_cons_of_subset _ (List.append_subset.mpr ⟨List.subset_append_left _ _, ?_⟩))
    exact List.subset_append_of_subset_right _ (List.take_subset _ _)
  obtain ⟨genesis, rooted, grown'⟩ := descends
  rw [← taken] at tips agree
  have within : hashedData ledger.1.chain ⊆ hashedData (canonicalGenesis :: (ledger.1.chain ++ other.1.chain)) := by
    exact hashedData_mono (List.subset_cons_of_subset _ (List.subset_append_left _ _))
  have within' : hashedData middle.1.chain ⊆ hashedData (canonicalGenesis :: (ledger.1.chain ++ other.1.chain)) := by
    rw [taken]
    exact hashedData_mono (List.subset_cons_of_subset _ (List.subset_append_of_subset_right _ (List.take_subset _ _)))
  obtain ⟨state, economy⟩ := Grown.equal_tips free rooted .refl_canonical grown' grown within within' tips
  have agrees : ledger.Agrees middle := ⟨agree, economy, state⟩
  refine ⟨by rw [← taken]; exact agrees.map_eq Block.hash fun _ _ => rfl, ?_⟩
  have dropped : other.1.chain.drop (k + 1) = rest.drop k := by
    rw [shape]
    rfl
  obtain ⟨after, continued, _⟩ := agrees.rebuildChain back
  rw [dropped]
  exact ⟨after, Node.rebuildChain_reclock continued fun block member reading =>
    passes block (by rw [shape]; exact List.mem_cons_of_mem _ (List.mem_of_mem_drop member)) reading⟩

end

end Kybernetes
