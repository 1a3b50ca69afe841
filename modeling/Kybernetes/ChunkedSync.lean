import Kybernetes.ProducerAgreement

namespace Kybernetes

/-- The blocks have the indices from the given one on. -/
def IndexedFrom (position : ℕ) (blocks : List Block) : Prop :=
  ∀ (i : ℕ) (inside : i < blocks.length), blocks[i].index.toNat = position + i

theorem indexedFrom_nil (position : ℕ) : IndexedFrom position [] :=
  fun _ inside => absurd inside (Nat.not_lt_zero _)

theorem indexedFrom_cons {position : ℕ} {block : Block} {blocks : List Block} :
    IndexedFrom position (block :: blocks) ↔ block.index.toNat = position ∧ IndexedFrom (position + 1) blocks := by
  constructor
  · intro indexed
    refine ⟨indexed 0 (Nat.zero_lt_succ _), fun i inside => ?_⟩
    have later := indexed (i + 1) (Nat.succ_lt_succ inside)
    rw [List.getElem_cons_succ] at later
    omega
  · rintro ⟨first, rest⟩ i inside
    cases i with
    | zero => exact first
    | succ i =>
      have later := rest i (Nat.lt_of_succ_lt_succ inside)
      rw [List.getElem_cons_succ]
      omega

theorem indexedFrom_append {position : ℕ} {front back : List Block} :
    IndexedFrom position (front ++ back) ↔
      IndexedFrom position front ∧ IndexedFrom (position + front.length) back := by
  induction front generalizing position with
  | nil => simp [indexedFrom_nil]
  | cons block front ih =>
    rw [List.cons_append, indexedFrom_cons, indexedFrom_cons, ih, List.length_cons, and_assoc, Nat.add_assoc,
      Nat.add_comm 1]

namespace Node

/-! ### The checks -/

theorem checkChunkBounds_eq_ok {startIndex totalBlocks : UInt64} {blocks : List Block} :
    checkChunkBounds startIndex totalBlocks blocks = .ok () ↔ blocks.length ≤ maxSyncBlocksPerMessage ∧
      totalBlocks ≠ 0 ∧ startIndex.toNat + blocks.length ≤ totalBlocks.toNat := by
  have word := totalBlocks.toNat_lt
  simp only [checkChunkBounds, bind_eq_ok, rejectIf_eq_ok, okOr_eq_ok, u64TryFrom_eq_some, exists_const,
    UInt64.lt_iff_toNat_lt, Nat.not_lt]
  constructor
  · rintro ⟨few, nonzero, _, last, value, within⟩
    exact ⟨few, nonzero, by omega⟩
  · rintro ⟨few, nonzero, within⟩
    obtain ⟨last, value⟩ := exists_eq_toNat (n := startIndex.toNat + blocks.length) (by omega)
    exact ⟨few, nonzero, by omega, last, value, by omega⟩

theorem checkBlockIndices_eq_ok {position : ℕ} {blocks : List Block} :
    checkBlockIndices position blocks = .ok () ↔ IndexedFrom position blocks := by
  induction blocks generalizing position with
  | nil => simp [checkBlockIndices, indexedFrom_nil]
  | cons block blocks ih =>
    simp only [checkBlockIndices, bind_eq_ok, okOr_eq_ok, u64TryFrom_eq_some, rejectIf_eq_ok, exists_const, ih,
      indexedFrom_cons, ne_eq, not_not]
    constructor
    · rintro ⟨_, rfl, rfl, rest⟩
      exact ⟨rfl, rest⟩
    · rintro ⟨rfl, rest⟩
      exact ⟨_, rfl, rfl, rest⟩

theorem checkChunkBlocks_eq_ok {startIndex totalBlocks : UInt64} {blocks : List Block} :
    checkChunkBlocks startIndex totalBlocks blocks = .ok () ↔
      IndexedFrom startIndex.toNat blocks ∧ (blocks = [] → totalBlocks ≤ startIndex) := by
  rw [checkChunkBlocks, bind_eq_ok, ← checkBlockIndices_eq_ok]
  simp only [rejectIf_eq_ok, not_and, UInt64.not_lt]
  constructor
  · rintro ⟨⟨⟩, indexed, nonempty⟩
    exact ⟨indexed, nonempty⟩
  · rintro ⟨indexed, nonempty⟩
    exact ⟨(), indexed, nonempty⟩

/-- The chunk starts a sync or is the next one of the sync in progress. -/
def Continues (node : Node) (startIndex totalBlocks : UInt64) : Prop :=
  startIndex ≠ 0 → node.syncExpectedTotal = some totalBlocks ∧ node.syncBuffer.length = startIndex.toNat

theorem placeChunk_of_continues {node : Node} {startIndex totalBlocks : UInt64}
    (continues : node.Continues startIndex totalBlocks) :
    node.placeChunk startIndex totalBlocks =
      .ok (node.withBuffer (if startIndex = 0 then [] else node.syncBuffer) (some totalBlocks)) := by
  by_cases zero : startIndex = 0
  · rw [placeChunk, if_pos zero, if_pos zero]
    rfl
  · obtain ⟨expected, length⟩ := continues zero
    have same : node.withBuffer node.syncBuffer (some totalBlocks) = node := by
      rw [← expected]
      rfl
    rw [placeChunk, if_neg zero, if_neg zero, same]
    simp only [rejectIf, expected, length, ne_eq, not_true_eq_false, if_false]
    rfl

theorem placeChunk_refused {node : Node} {startIndex totalBlocks : UInt64}
    (refused : ¬ node.Continues startIndex totalBlocks) :
    ∃ error, node.placeChunk startIndex totalBlocks = .error (.error error) := by
  rw [Continues, Classical.not_imp, not_and] at refused
  obtain ⟨nonzero, refused⟩ := refused
  rw [placeChunk, if_neg nonzero]
  by_cases expected : node.syncExpectedTotal = some totalBlocks
  · simp only [rejectIf, expected, refused expected, ne_eq, not_true_eq_false, not_false_eq_true, if_false, if_true]
    exact ⟨_, rfl⟩
  · simp only [rejectIf, expected, ne_eq, not_false_eq_true, if_true]
    exact ⟨_, rfl⟩

theorem returns_error {α : Type} {result : Result α} (returns : Returns result) (failed : ∀ a, result ≠ .ok a) :
    ∃ error, result = .error (.error error) := by
  cases result with
  | ok a => exact absurd rfl (failed a)
  | error fault =>
    cases fault with
    | error error => exact ⟨error, rfl⟩
    | panic message => exact absurd rfl (returns message)

theorem checkChunkBounds_refused {startIndex totalBlocks : UInt64} {blocks : List Block}
    (refused : checkChunkBounds startIndex totalBlocks blocks ≠ .ok ()) :
    ∃ error, checkChunkBounds startIndex totalBlocks blocks = .error (.error error) := by
  refine returns_error ?_ fun _ => refused
  exact (returns_rejectIf _ _).bind fun _ _ => (returns_rejectIf _ _).bind fun _ _ =>
    (returns_rejectIf _ _).bind fun _ _ => (returns_okOr _ _).bind fun _ _ => returns_rejectIf _ _

theorem checkBlockIndices_returns (position : ℕ) (blocks : List Block) :
    Returns (checkBlockIndices position blocks) := by
  induction blocks generalizing position with
  | nil => exact returns_ok ()
  | cons block blocks ih =>
    exact (returns_okOr _ _).bind fun _ _ => (returns_rejectIf _ _).bind fun _ _ => ih (position + 1)

theorem checkChunkBlocks_refused {startIndex totalBlocks : UInt64} {blocks : List Block}
    (refused : checkChunkBlocks startIndex totalBlocks blocks ≠ .ok ()) :
    ∃ error, checkChunkBlocks startIndex totalBlocks blocks = .error (.error error) := by
  refine returns_error ?_ fun _ => refused
  exact (checkBlockIndices_returns _ _).bind fun _ _ => returns_rejectIf _ _

/-! ### One call -/

/-- The chunk passes every check, so its blocks go into the buffer. -/
structure TakesChunk (node : Node) (startIndex totalBlocks : UInt64) (blocks : List Block) : Prop where
  bounds : checkChunkBounds startIndex totalBlocks blocks = .ok ()
  continues : node.Continues startIndex totalBlocks
  indices : checkChunkBlocks startIndex totalBlocks blocks = .ok ()

theorem assembledChain_length {node : Node} {startIndex totalBlocks : UInt64} {blocks : List Block}
    (continues : node.Continues startIndex totalBlocks) :
    (node.assembledChain startIndex blocks).length = startIndex.toNat + blocks.length := by
  rw [assembledChain, List.length_append]
  by_cases zero : startIndex = 0
  · rw [if_pos zero, zero]
    rfl
  · rw [if_neg zero, (continues zero).2]

section

variable [Crypto]

theorem synchronizeChain_withBuffer (node : Node) (buffer : List Block) (total : Option UInt64)
    (clock : Nat → SystemTime) (answer : WriteAnswer) (file : ChainFile) (chain : List Block) :
    (node.withBuffer buffer total).synchronizeChain clock answer file chain =
      ((node.synchronizeChain clock answer file chain).1,
        (node.synchronizeChain clock answer file chain).2.1.withBuffer buffer total,
        (node.synchronizeChain clock answer file chain).2.2) := by
  unfold synchronizeChain
  rw [judgeChain_withBuffer]
  cases node.judgeChain clock chain with
  | error fault => rfl
  | ok judged =>
    cases judged with
    | none => rfl
    | some after =>
      obtain ⟨blockchain, state⟩ := after
      dsimp only
      rcases saveBlockchainTo_cases answer file blockchain.chain with ⟨fault, written⟩ | ⟨_, written⟩
      · rw [written]
      · rw [written]
        rfl

variable {node : Node} {clock : Nat → SystemTime} {answer : WriteAnswer} {file : ChainFile}
  {startIndex totalBlocks : UInt64} {blocks : List Block}

/-- A chunk that is taken and leaves blocks missing is put into the buffer. -/
theorem applyChainChunk_buffered (takes : node.TakesChunk startIndex totalBlocks blocks)
    (missing : startIndex.toNat + blocks.length < totalBlocks.toNat) :
    node.applyChainChunk clock answer file startIndex totalBlocks blocks =
      (.ok (some (UInt64.ofNat (startIndex.toNat + blocks.length))),
        node.withBuffer (node.assembledChain startIndex blocks) (some totalBlocks), file) := by
  have length := @assembledChain_length node startIndex totalBlocks blocks takes.continues
  rw [← length] at missing ⊢
  rw [applyChainChunk, acceptChainChunk, takes.bounds]
  dsimp only
  rw [placeChunk_of_continues takes.continues, takes.indices]
  exact if_pos missing

/-- The last chunk hands the assembled chain to `synchronize_chain`. -/
theorem applyChainChunk_completed (takes : node.TakesChunk startIndex totalBlocks blocks)
    (complete : startIndex.toNat + blocks.length = totalBlocks.toNat) {chain : List Block}
    (assembled : node.assembledChain startIndex blocks = chain) :
    node.applyChainChunk clock answer file startIndex totalBlocks blocks =
      ((node.synchronizeChain clock answer file chain).1.map fun _ => none,
        (node.synchronizeChain clock answer file chain).2.1.withBuffer [] none,
        (node.synchronizeChain clock answer file chain).2.2) := by
  subst assembled
  have length := (@assembledChain_length node startIndex totalBlocks blocks takes.continues).trans complete
  rw [applyChainChunk, acceptChainChunk, takes.bounds]
  dsimp only
  rw [placeChunk_of_continues takes.continues, takes.indices]
  refine (if_neg (by rw [← length]; exact Nat.lt_irrefl _)).trans
    ((if_neg (not_not.mpr length)).trans ?_)
  have run := synchronizeChain_withBuffer node [] none clock answer file (node.assembledChain startIndex blocks)
  simp only [withBuffer, assembledChain] at run ⊢
  rw [run]
  cases (node.synchronizeChain clock answer file ((if startIndex = 0 then [] else node.syncBuffer) ++ blocks)).1 with
  | error fault => rfl
  | ok _ => rfl

/-- A chunk that is not taken is an error. It changes something only where it starts a sync, has
fitting bounds and is refused for its blocks. -/
theorem applyChainChunk_refused (refused : ¬ node.TakesChunk startIndex totalBlocks blocks) :
    ∃ error, node.applyChainChunk clock answer file startIndex totalBlocks blocks =
      (.error (.error error),
        if startIndex = 0 ∧ checkChunkBounds startIndex totalBlocks blocks = .ok () then
          node.withBuffer [] (some totalBlocks)
        else node, file) := by
  rw [applyChainChunk, acceptChainChunk]
  by_cases bounds : checkChunkBounds startIndex totalBlocks blocks = .ok ()
  · by_cases continues : node.Continues startIndex totalBlocks
    · have indices : checkChunkBlocks startIndex totalBlocks blocks ≠ .ok () :=
        fun indices => refused ⟨bounds, continues, indices⟩
      obtain ⟨error, failed⟩ := checkChunkBlocks_refused indices
      refine ⟨error, ?_⟩
      rw [bounds, placeChunk_of_continues continues, failed]
      by_cases zero : startIndex = 0
      · simp only [zero, if_true, and_self]
      · have same : node.withBuffer node.syncBuffer (some totalBlocks) = node := by
          rw [← (continues zero).1]
          rfl
        simp only [zero, if_false, false_and, same]
    · obtain ⟨error, failed⟩ := placeChunk_refused continues
      have nonzero : startIndex ≠ 0 := (Classical.not_imp.mp continues).1
      refine ⟨error, ?_⟩
      rw [bounds]
      dsimp only
      rw [failed, if_neg (fun both => nonzero both.1)]
  · obtain ⟨error, failed⟩ := checkChunkBounds_refused bounds
    refine ⟨error, ?_⟩
    rw [failed, if_neg (by simp)]

omit [Crypto] in
theorem completes_iff {chain : List Block} : Completes node startIndex totalBlocks blocks chain ↔
    node.TakesChunk startIndex totalBlocks blocks ∧ startIndex.toNat + blocks.length = totalBlocks.toNat ∧
      node.assembledChain startIndex blocks = chain := by
  constructor
  · rintro ⟨bounds, ⟨placed, place⟩, indices, rfl, whole⟩
    have continues : node.Continues startIndex totalBlocks := by
      by_contra refused
      obtain ⟨error, failed⟩ := placeChunk_refused refused
      rw [failed] at place
      cases place
    rw [assembledChain_length continues] at whole
    exact ⟨⟨bounds, continues, indices⟩, whole, rfl⟩
  · rintro ⟨takes, whole, rfl⟩
    exact ⟨takes.bounds, ⟨_, placeChunk_of_continues takes.continues⟩, takes.indices, rfl,
      (assembledChain_length takes.continues).trans whole⟩

/-- What a rejected chunk leaves to the sync in progress: the buffer, the expected total, and
with them every chunk that the sync could be continued with. -/
structure Undisturbed (before after : Node) : Prop where
  buffer : after.syncBuffer = before.syncBuffer
  expected : after.syncExpectedTotal = before.syncExpectedTotal
  honest : ∀ startIndex totalBlocks blocks,
    after.TakesChunk startIndex totalBlocks blocks ↔ before.TakesChunk startIndex totalBlocks blocks

omit [Crypto] in
theorem undisturbed_refl (node : Node) : Undisturbed node node :=
  ⟨rfl, rfl, fun _ _ _ => Iff.rfl⟩

/-- The chunk would start a new sync, is refused only for its blocks, and there was something to
keep. -/
structure RestartsInVain (node : Node) (startIndex totalBlocks : UInt64) (blocks : List Block) : Prop where
  zero : startIndex = 0
  bounds : checkChunkBounds startIndex totalBlocks blocks = .ok ()
  indices : checkChunkBlocks startIndex totalBlocks blocks ≠ .ok ()
  progress : node.syncBuffer ≠ [] ∨ node.syncExpectedTotal ≠ some totalBlocks

/-- An error that comes before a chain is assembled leaves the sync in progress alone exactly when
it is not the blocks of a chunk for a new sync that are refused. -/
theorem applyChainChunk_error_iff (node : Node) (clock : Nat → SystemTime) (answer : WriteAnswer)
    (file : ChainFile) (startIndex totalBlocks : UInt64) (blocks : List Block) :
    (∀ error after file', node.applyChainChunk clock answer file startIndex totalBlocks blocks =
        (.error (.error error), after, file') →
      (¬ ∃ chain, Completes node startIndex totalBlocks blocks chain) → Undisturbed node after) ↔
      ¬ node.RestartsInVain startIndex totalBlocks blocks := by
  constructor
  · rintro undisturbed ⟨zero, bounds, indices, progress⟩
    have refused : ¬ node.TakesChunk startIndex totalBlocks blocks := fun takes => indices takes.indices
    obtain ⟨error, run⟩ := @applyChainChunk_refused _ node clock answer file _ _ _ refused
    rw [if_pos ⟨zero, bounds⟩] at run
    have same := undisturbed _ _ _ run fun completes => by
      obtain ⟨chain, completes⟩ := completes
      exact refused (completes_iff.mp completes).1
    rcases progress with buffered | expected
    · exact buffered same.buffer.symm
    · exact expected same.expected.symm
  · intro sound error after file' run incomplete
    by_cases takes : node.TakesChunk startIndex totalBlocks blocks
    · obtain ⟨_, _, within⟩ := checkChunkBounds_eq_ok.mp takes.bounds
      rcases Nat.lt_or_eq_of_le within with missing | complete
      · rw [applyChainChunk_buffered takes missing] at run
        cases run
      · exact absurd ⟨_, completes_iff.mpr ⟨takes, complete, rfl⟩⟩ incomplete
    · obtain ⟨error', run'⟩ := @applyChainChunk_refused _ node clock answer file _ _ _ takes
      rw [run, Prod.mk.injEq, Prod.mk.injEq] at run'
      rw [run'.2.1]
      by_cases restarts : startIndex = 0 ∧ checkChunkBounds startIndex totalBlocks blocks = .ok ()
      · -- the blocks were refused, so nothing was in progress but the same sync without blocks
        obtain ⟨zero, bounds⟩ := restarts
        have indices : checkChunkBlocks startIndex totalBlocks blocks ≠ .ok () :=
          fun indices => takes ⟨bounds, fun nonzero => absurd zero nonzero, indices⟩
        have idle : node.syncBuffer = [] ∧ node.syncExpectedTotal = some totalBlocks := by
          by_contra progress
          rw [not_and_or] at progress
          exact sound ⟨zero, bounds, indices, progress⟩
        have same : node.withBuffer [] (some totalBlocks) = node := by
          rw [← idle.1, ← idle.2]
          rfl
        rw [if_pos ⟨zero, bounds⟩, same]
        exact undisturbed_refl node
      · rw [if_neg restarts]
        exact undisturbed_refl node

end

end Node

open Fixture in
/-- In the middle of a sync a chunk that would start it again is refused for the index of its
block. The sync is lost, and its next chunk with it. -/
theorem Fixture.refused_restart_drops_sync :
    let clock := fun _ : Nat => now
    let middle := (node.applyChainChunk clock (.ok ()) .missing 0 2 [genesis]).2.1
    let refused := middle.applyChainChunk clock (.ok ()) .missing 0 2 [firstBlock]
    middle.syncBuffer = [genesis] ∧ middle.syncExpectedTotal = some 2 ∧
      refused.1 = .error (.error "Sync block index order is invalid. Expected: 0, Received: 1") ∧
      refused.2.1.syncBuffer = [] ∧
      (middle.applyChainChunk clock (.ok ()) .missing 1 2 [firstBlock]).1 = .ok none ∧
      (refused.2.1.applyChainChunk clock (.ok ()) .missing 1 2 [firstBlock]).1 =
        .error (.error "Sync chunk order is invalid") ∧
      ¬ ∀ error after file', middle.applyChainChunk clock (.ok ()) .missing 0 2 [firstBlock] =
          (.error (.error error), after, file') →
        (¬ ∃ chain, Completes middle 0 2 [firstBlock] chain) → Node.Undisturbed middle after := by
  intro clock middle refused
  have buffer : middle.syncBuffer = [genesis] := by decide +kernel
  have run := eq_of_first (x := refused)
    (a := .error (.error "Sync block index order is invalid. Expected: 0, Received: 1")) (by decide +kernel)
  have emptied : refused.2.1.syncBuffer = [] := by decide +kernel
  refine ⟨buffer, by decide +kernel, by rw [run], emptied, by decide +kernel, by decide +kernel,
    fun undisturbed => ?_⟩
  have incomplete : ¬ ∃ chain, Completes middle 0 2 [firstBlock] chain := by
    rintro ⟨chain, completes⟩
    have indices := (Node.checkChunkBlocks_eq_ok.mp completes.indices).1
    exact absurd (indices 0 (by decide)) (by decide)
  have same := (undisturbed _ _ _ run incomplete).buffer
  rw [emptied, buffer] at same
  cases same

end Kybernetes
