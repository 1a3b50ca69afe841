import Kybernetes.ChunkedSync

namespace Kybernetes

/-- One call of `apply_chain_chunk` with what the outside gives it. -/
structure ChunkCall where
  env : Environment
  startIndex : UInt64
  totalBlocks : UInt64
  blocks : List Block

/-- The blocks of a chain cut into pieces, each with the outside of its call. -/
abbrev Pieces := List (Environment × List Block)

namespace ChunkCall

/-- The call begins a new sync: a chunk that starts at zero and has fitting bounds. -/
def Restarts (call : ChunkCall) : Prop :=
  call.startIndex = 0 ∧ Node.checkChunkBounds call.startIndex call.totalBlocks call.blocks = .ok ()

def Takes (node : Node) (call : ChunkCall) : Prop :=
  node.TakesChunk call.startIndex call.totalBlocks call.blocks

/-- The call hands the chain to `synchronize_chain`. -/
def Hands (node : Node) (call : ChunkCall) (chain : List Block) : Prop :=
  Completes node call.startIndex call.totalBlocks call.blocks chain

/-- The calls with the pieces in order, each with the index where its piece begins. -/
def ofPieces (total : UInt64) : ℕ → Pieces → List ChunkCall
  | _, [] => []
  | start, (env, blocks) :: rest =>
    { env, startIndex := UInt64.ofNat start, totalBlocks := total, blocks } ::
      ofPieces total (start + blocks.length) rest

/-- Where the piece after each of the given pieces begins. -/
def nextStarts : ℕ → Pieces → List ℕ
  | _, [] => []
  | start, (_, blocks) :: rest => (start + blocks.length) :: nextStarts (start + blocks.length) rest

section

variable [Crypto]

def perform (call : ChunkCall) (config : Node × ChainFile) : Result (Option UInt64) × Node × ChainFile :=
  config.1.applyChainChunk call.env.clock call.env.answer config.2 call.startIndex call.totalBlocks call.blocks

/-- The node and its chain file after the calls. -/
def feed (config : Node × ChainFile) (calls : List ChunkCall) : Node × ChainFile :=
  calls.foldl (fun config call => (call.perform config).2) config

def results : Node × ChainFile → List ChunkCall → List (Result (Option UInt64))
  | _, [] => []
  | config, call :: rest => (call.perform config).1 :: results (call.perform config).2 rest

theorem results_append (config : Node × ChainFile) (front back : List ChunkCall) :
    results config (front ++ back) = results config front ++ results (feed config front) back := by
  induction front generalizing config with
  | nil => rfl
  | cons call front ih => rw [List.cons_append, results, results, ih, List.cons_append, feed, feed, List.foldl_cons]

theorem feed_append (config : Node × ChainFile) (front back : List ChunkCall) :
    feed config (front ++ back) = feed (feed config front) back :=
  List.foldl_append

end

theorem ofPieces_append (total : UInt64) (start : ℕ) (front back : Pieces) :
    ofPieces total start (front ++ back) =
      ofPieces total start front ++ ofPieces total (start + (front.map Prod.snd).flatten.length) back := by
  induction front generalizing start with
  | nil => rfl
  | cons piece front ih =>
    rw [List.cons_append, ofPieces, ofPieces, ih, List.cons_append, List.map_cons, List.flatten_cons,
      List.length_append, Nat.add_assoc]

/-! ### The pieces of one chain -/

/-- The node that began as `origin` holds the blocks so far; before the first piece its buffer may
be anything. -/
def Holds (origin : Node) (total : UInt64) (soFar : List Block) (node : Node) : Prop :=
  ∃ buffer expected, node = origin.withBuffer buffer expected ∧
    (soFar ≠ [] → buffer = soFar ∧ expected = some total)

section Pieces

variable {origin node : Node} {total : UInt64} {chain soFar blocks : List Block}

/-- The next piece of the chain is taken and put behind the blocks so far. -/
theorem Holds.takes (holds : Holds origin total soFar node) (whole : total.toNat = chain.length)
    (indexed : IndexedFrom 0 chain) {rest : List Block} (split : soFar ++ (blocks ++ rest) = chain)
    (nonempty : blocks ≠ []) (size : blocks.length ≤ maxSyncBlocksPerMessage) :
    (UInt64.ofNat soFar.length).toNat = soFar.length ∧
      node.TakesChunk (UInt64.ofNat soFar.length) total blocks ∧
      node.assembledChain (UInt64.ofNat soFar.length) blocks = soFar ++ blocks := by
  obtain ⟨buffer, expected, rfl, kept⟩ := holds
  have word := total.toNat_lt
  have lengths := congrArg List.length split
  rw [List.length_append, List.length_append] at lengths
  have positive := List.length_pos_iff.mpr nonempty
  have start : (UInt64.ofNat soFar.length).toNat = soFar.length :=
    UInt64.toNat_ofNat_of_lt' (by rw [UInt64.size]; omega)
  have zero_iff : UInt64.ofNat soFar.length = 0 ↔ soFar = [] := by
    rw [← UInt64.toNat_inj, start, UInt64.toNat_zero, List.length_eq_zero_iff]
  rw [← split, indexedFrom_append, indexedFrom_append, Nat.zero_add] at indexed
  refine ⟨start, ⟨?_, fun nonzero => ?_, ?_⟩, ?_⟩
  · rw [Node.checkChunkBounds_eq_ok, start]
    refine ⟨size, fun none => ?_, by omega⟩
    rw [none, UInt64.toNat_zero] at whole
    omega
  · obtain ⟨rfl, rfl⟩ := kept fun none => nonzero (zero_iff.mpr none)
    exact ⟨rfl, start.symm⟩
  · rw [Node.checkChunkBlocks_eq_ok, start]
    exact ⟨indexed.2.1, fun none => absurd none nonempty⟩
  · rw [Node.assembledChain]
    by_cases zero : soFar = []
    · rw [if_pos (zero_iff.mpr zero), zero]
    · rw [if_neg fun first => zero (zero_iff.mp first), ← (kept zero).1]
      rfl

variable [Crypto]

/-- Every piece but the last is put into the buffer. -/
theorem Holds.feed_front {file : ChainFile} {front : Pieces} {rest : List Block}
    (holds : Holds origin total soFar node) (whole : total.toNat = chain.length) (indexed : IndexedFrom 0 chain)
    (split : soFar ++ ((front.map Prod.snd).flatten ++ rest) = chain) (missing : rest ≠ [])
    (sizes : ∀ piece ∈ front, piece.2 ≠ [] ∧ piece.2.length ≤ maxSyncBlocksPerMessage) :
    results (node, file) (ofPieces total soFar.length front) =
        (nextStarts soFar.length front).map (fun next => .ok (some (UInt64.ofNat next))) ∧
      ∃ node', feed (node, file) (ofPieces total soFar.length front) = (node', file) ∧
        Holds origin total (soFar ++ (front.map Prod.snd).flatten) node' := by
  induction front generalizing soFar node with
  | nil => exact ⟨rfl, node, rfl, by simpa using holds⟩
  | cons piece front ih =>
    obtain ⟨env, blocks⟩ := piece
    obtain ⟨nonempty, size⟩ := sizes (env, blocks) (List.mem_cons_self ..)
    rw [List.map_cons, List.flatten_cons, List.append_assoc] at split
    obtain ⟨start, takes, assembled⟩ := holds.takes whole indexed split nonempty size
    have lengths := congrArg List.length split
    simp only [List.length_append] at lengths
    have positive := List.length_pos_iff.mpr missing
    have short : (UInt64.ofNat soFar.length).toNat + blocks.length < total.toNat := by
      rw [start, whole]
      omega
    have run := @Node.applyChainChunk_buffered _ node env.clock env.answer file _ _ _ takes short
    rw [start, assembled] at run
    have later : Holds origin total (soFar ++ blocks) (node.withBuffer (soFar ++ blocks) (some total)) := by
      obtain ⟨buffer, expected, rfl, _⟩ := holds
      exact ⟨_, _, rfl, fun _ => ⟨rfl, rfl⟩⟩
    have split' : soFar ++ blocks ++ ((front.map Prod.snd).flatten ++ rest) = chain := by
      rw [List.append_assoc]
      exact split
    obtain ⟨restResults, node', restFeed, final⟩ := ih later split' fun other member =>
      sizes other (List.mem_cons_of_mem _ member)
    rw [List.length_append] at restResults restFeed
    rw [List.append_assoc] at final
    rw [ofPieces, results, feed, List.foldl_cons, perform, run, nextStarts, List.map_cons, restResults]
    exact ⟨rfl, node', restFeed, final⟩

/-- All pieces in order do what `synchronize_chain` does with the chain. -/
theorem feed_pieces (node : Node) (file : ChainFile) (whole : total.toNat = chain.length)
    (indexed : IndexedFrom 0 chain) {front : Pieces} {last : Environment × List Block}
    (split : ((front ++ [last]).map Prod.snd).flatten = chain)
    (sizes : ∀ piece ∈ front ++ [last], piece.2 ≠ [] ∧ piece.2.length ≤ maxSyncBlocksPerMessage) :
    let sync := node.synchronizeChain last.1.clock last.1.answer file chain
    results (node, file) (ofPieces total 0 (front ++ [last])) =
        (nextStarts 0 front).map (fun next => .ok (some (UInt64.ofNat next))) ++ [sync.1.map fun _ => none] ∧
      feed (node, file) (ofPieces total 0 (front ++ [last])) = (sync.2.1.withBuffer [] none, sync.2.2) := by
  intro sync
  obtain ⟨env, blocks⟩ := last
  obtain ⟨nonempty, size⟩ := sizes (env, blocks) (List.mem_append_right _ (List.mem_singleton_self _))
  rw [List.map_append, List.flatten_append, List.map_singleton, List.flatten_singleton] at split
  have start : Holds node total [] node := ⟨node.syncBuffer, node.syncExpectedTotal, rfl, fun some => absurd rfl some⟩
  obtain ⟨frontResults, node', frontFeed, holds⟩ := @Holds.feed_front _ _ _ _ _ _ file _ _ start whole indexed split
    nonempty fun piece member => sizes piece (List.mem_append_left _ member)
  rw [List.length_nil] at frontResults frontFeed
  rw [List.nil_append] at holds
  have split' : (front.map Prod.snd).flatten ++ (blocks ++ []) = chain := by
    rw [List.append_nil]
    exact split
  obtain ⟨position, takes, assembled⟩ := holds.takes whole indexed split' nonempty size
  have lengths := congrArg List.length split
  rw [List.length_append] at lengths
  have complete : (UInt64.ofNat (front.map Prod.snd).flatten.length).toNat + blocks.length = total.toNat := by
    rw [position, whole]
    exact lengths
  have run := @Node.applyChainChunk_completed _ node' env.clock env.answer file _ _ _ takes complete _
    (assembled.trans split)
  obtain ⟨buffer, expected, rfl, _⟩ := holds
  rw [Node.synchronizeChain_withBuffer] at run
  have done : perform
      { env, startIndex := UInt64.ofNat (front.map Prod.snd).flatten.length, totalBlocks := total, blocks }
      (node.withBuffer buffer expected, file) =
        (sync.1.map fun _ => none, sync.2.1.withBuffer [] none, sync.2.2) := run
  rw [ofPieces_append, Nat.zero_add, results_append, feed_append, frontResults, frontFeed, ofPieces, ofPieces,
    results, results, feed, List.foldl_cons, List.foldl_nil, done]
  exact ⟨rfl, rfl⟩

end Pieces

/-! ### Any sequence of calls -/

section Sequences

variable [Crypto] {config : Node × ChainFile} {call : ChunkCall}

/-- A call leaves the node as it was, empties the buffer for a new sync, puts blocks behind it, or
hands on a chain and clears it. -/
theorem perform_buffer (call : ChunkCall) (config : Node × ChainFile) :
    let node := config.1
    let after := (call.perform config).2.1
    (¬ call.Takes node ∧ ¬ call.Restarts ∧ after = node) ∨
      (¬ call.Takes node ∧ call.Restarts ∧ after.syncBuffer = [] ∧ after.syncExpectedTotal = some call.totalBlocks) ∨
      (call.Takes node ∧ after.syncBuffer = node.assembledChain call.startIndex call.blocks ∧
        after.syncExpectedTotal = some call.totalBlocks) ∨
      (call.Takes node ∧ after.syncBuffer = [] ∧ after.syncExpectedTotal = none) := by
  intro node after
  by_cases takes : call.Takes node
  · obtain ⟨_, _, within⟩ := Node.checkChunkBounds_eq_ok.mp takes.bounds
    rcases Nat.lt_or_eq_of_le within with missing | complete
    · have run := @Node.applyChainChunk_buffered _ node call.env.clock call.env.answer config.2 _ _ _ takes missing
      have kept : after = node.withBuffer (node.assembledChain call.startIndex call.blocks) (some call.totalBlocks) :=
        congrArg (fun result => result.2.1) run
      exact Or.inr (Or.inr (Or.inl ⟨takes, by rw [kept]; rfl, by rw [kept]; rfl⟩))
    · have run := @Node.applyChainChunk_completed _ node call.env.clock call.env.answer config.2 _ _ _ takes complete
        _ rfl
      have kept := congrArg (fun result => result.2.1) run
      change after = _ at kept
      exact Or.inr (Or.inr (Or.inr ⟨takes, by rw [kept]; rfl, by rw [kept]; rfl⟩))
  · obtain ⟨error, run⟩ := @Node.applyChainChunk_refused _ node call.env.clock call.env.answer config.2 _ _ _ takes
    have kept := congrArg (fun result => result.2.1) run
    change after = if _ then _ else _ at kept
    by_cases restarts : call.startIndex = 0 ∧
        Node.checkChunkBounds call.startIndex call.totalBlocks call.blocks = .ok ()
    · rw [if_pos restarts] at kept
      exact Or.inr (Or.inl ⟨takes, restarts, by rw [kept]; rfl, by rw [kept]; rfl⟩)
    · rw [if_neg restarts] at kept
      exact Or.inl ⟨takes, restarts, kept⟩

omit [Crypto] in
theorem Takes.indexed {node : Node} (takes : call.Takes node) (indexed : IndexedFrom 0 node.syncBuffer) :
    IndexedFrom 0 (node.assembledChain call.startIndex call.blocks) := by
  have blocks := (Node.checkChunkBlocks_eq_ok.mp takes.indices).1
  rw [Node.assembledChain]
  by_cases zero : call.startIndex = 0
  · rw [zero, UInt64.toNat_zero] at blocks
    rw [if_pos zero]
    exact blocks
  · rw [if_neg zero, indexedFrom_append, Nat.zero_add, (takes.continues zero).2]
    exact ⟨indexed, blocks⟩

theorem perform_indexed (indexed : IndexedFrom 0 config.1.syncBuffer) :
    IndexedFrom 0 (call.perform config).2.1.syncBuffer := by
  rcases perform_buffer call config with ⟨_, _, kept⟩ | ⟨_, _, buffer, _⟩ | ⟨takes, buffer, _⟩ | ⟨_, buffer, _⟩
  · rw [kept]
    exact indexed
  · rw [buffer]
    exact indexedFrom_nil 0
  · rw [buffer]
    exact Takes.indexed takes indexed
  · rw [buffer]
    exact indexedFrom_nil 0

theorem feed_indexed (calls : List ChunkCall) (indexed : IndexedFrom 0 config.1.syncBuffer) :
    IndexedFrom 0 (feed config calls).1.syncBuffer := by
  induction calls generalizing config with
  | nil => exact indexed
  | cons call rest ih => exact ih (perform_indexed indexed)

/-- What is known of the buffer after a sync with the given total has begun. -/
structure Assembling (total : UInt64) (node : Node) : Prop where
  indexed : IndexedFrom 0 node.syncBuffer
  expected : node.syncExpectedTotal = none ∨ node.syncExpectedTotal = some total

theorem Restarts.assembling (restarts : call.Restarts) : Assembling call.totalBlocks (call.perform config).2.1 := by
  have zero := restarts.1
  rcases perform_buffer call config with ⟨_, still, _⟩ | ⟨_, _, buffer, expected⟩ | ⟨takes, buffer, expected⟩ |
    ⟨_, buffer, expected⟩
  · exact absurd restarts still
  · exact ⟨by rw [buffer]; exact indexedFrom_nil 0, Or.inr expected⟩
  · have blocks := (Node.checkChunkBlocks_eq_ok.mp takes.indices).1
    rw [zero, UInt64.toNat_zero] at blocks
    refine ⟨?_, Or.inr expected⟩
    rw [buffer, Node.assembledChain, if_pos zero]
    exact blocks
  · exact ⟨by rw [buffer]; exact indexedFrom_nil 0, Or.inl expected⟩

omit [Crypto] in
/-- A chunk taken into a sync announces the total that the sync began with. -/
theorem Assembling.total_eq {total : UInt64} {node : Node} (assembling : Assembling total node)
    (takes : call.Takes node) (still : ¬ call.Restarts) : call.totalBlocks = total := by
  have nonzero : call.startIndex ≠ 0 := fun zero => still ⟨zero, takes.bounds⟩
  rcases assembling.expected with none | expected
  · rw [(takes.continues nonzero).1] at none
    cases none
  · rw [(takes.continues nonzero).1, Option.some.injEq] at expected
    exact expected

theorem Assembling.performed {total : UInt64} (assembling : Assembling total config.1) (still : ¬ call.Restarts) :
    Assembling total (call.perform config).2.1 := by
  rcases perform_buffer call config with ⟨_, _, kept⟩ | ⟨_, restarts, _⟩ | ⟨takes, buffer, expected⟩ |
    ⟨_, buffer, expected⟩
  · rw [kept]
    exact assembling
  · exact absurd restarts still
  · rw [assembling.total_eq takes still] at expected
    exact ⟨by rw [buffer]; exact Takes.indexed takes assembling.indexed, Or.inr expected⟩
  · exact ⟨by rw [buffer]; exact indexedFrom_nil 0, Or.inl expected⟩

theorem Assembling.fed {total : UInt64} (assembling : Assembling total config.1) {calls : List ChunkCall}
    (still : ∀ call ∈ calls, ¬ call.Restarts) : Assembling total (feed config calls).1 := by
  induction calls generalizing config with
  | nil => exact assembling
  | cons call rest ih =>
    exact ih (assembling.performed (still call (List.mem_cons_self ..))) fun other member =>
      still other (List.mem_cons_of_mem _ member)

omit [Crypto] in
theorem Hands.length_eq {node : Node} {chain : List Block} (hands : call.Hands node chain) :
    chain.length = call.totalBlocks.toNat :=
  hands.whole

omit [Crypto] in
theorem Hands.takes {node : Node} {chain : List Block} (hands : call.Hands node chain) : call.Takes node :=
  (Node.completes_iff.mp hands).1

omit [Crypto] in
theorem Hands.indexed {node : Node} {chain : List Block} (hands : call.Hands node chain)
    (indexed : IndexedFrom 0 node.syncBuffer) : IndexedFrom 0 chain := by
  rw [← hands.assembled]
  exact Takes.indexed hands.takes indexed

omit [Crypto] in
theorem indexedFrom_zero {chain : List Block} :
    IndexedFrom 0 chain ↔ ∀ (i : ℕ) (inside : i < chain.length), chain[i].index.toNat = i := by
  simp only [IndexedFrom, Nat.zero_add]

omit [Crypto] in
/-- A call that begins a sync is judged by its own total and blocks alone. -/
theorem Restarts.hands {node : Node} {chain : List Block} (restarts : call.Restarts) (hands : call.Hands node chain) :
    IndexedFrom 0 chain := by
  have blocks := (Node.checkChunkBlocks_eq_ok.mp hands.indices).1
  rw [restarts.1, UInt64.toNat_zero] at blocks
  rw [← hands.assembled, Node.assembledChain, if_pos restarts.1]
  exact blocks

/-- Every call from a restart up to the next one: what is taken announces the total of the restart,
and a chain that is handed on has that length and its blocks in their places. -/
theorem restart_segment {first call : ChunkCall} {rest earlier later : List ChunkCall} (restarts : first.Restarts)
    (still : ∀ call ∈ rest, ¬ call.Restarts) (split : first :: rest = earlier ++ call :: later) :
    (call.Takes (feed config earlier).1 → call.totalBlocks = first.totalBlocks) ∧
      ∀ chain, call.Hands (feed config earlier).1 chain →
        IndexedFrom 0 chain ∧ chain.length = first.totalBlocks.toNat := by
  cases earlier with
  | nil =>
    obtain ⟨rfl, _⟩ := List.cons_eq_cons.mp split
    exact ⟨fun _ => rfl, fun chain hands => ⟨restarts.hands hands, hands.length_eq⟩⟩
  | cons head earlier =>
    obtain ⟨rfl, tail⟩ := List.cons_eq_cons.mp split
    have within : ∀ other ∈ earlier ++ call :: later, ¬ other.Restarts := fun other member =>
      still other (tail ▸ member)
    have assembling : Assembling first.totalBlocks (feed config (first :: earlier)).1 :=
      restarts.assembling.fed fun other member => within other (List.mem_append_left _ member)
    have last : ¬ call.Restarts := within call (List.mem_append_right _ (List.mem_cons_self ..))
    refine ⟨fun takes => assembling.total_eq takes last, fun chain hands => ⟨hands.indexed assembling.indexed, ?_⟩⟩
    rw [hands.length_eq, assembling.total_eq hands.takes last]

end Sequences

end ChunkCall

section

variable [Crypto]

open ChunkCall

/-- A chain that arrives in pieces is synchronized like the whole chain, whatever an earlier sync
has left behind; and whatever calls are made, only chains with their blocks in their places and of
the total announced since the sync began are synchronized. -/
theorem Node.chunked_sync (node : Node) (file : ChainFile) :
    (∀ (chain : List Block) (total : UInt64) (pieces : Pieces), total.toNat = chain.length → 1 ≤ chain.length →
      (∀ (i : ℕ) (inside : i < chain.length), chain[i].index.toNat = i) → (pieces.map Prod.snd).flatten = chain →
      (∀ piece ∈ pieces, piece.2 ≠ [] ∧ piece.2.length ≤ maxSyncBlocksPerMessage) →
      ∃ front last, pieces = front ++ [last] ∧
        let sync := node.synchronizeChain last.1.clock last.1.answer file chain
        results (node, file) (ofPieces total 0 pieces) =
            (nextStarts 0 front).map (fun next => .ok (some (UInt64.ofNat next))) ++ [sync.1.map fun _ => none] ∧
          feed (node, file) (ofPieces total 0 pieces) = (sync.2.1.withBuffer [] none, sync.2.2)) ∧
    (∀ (before : List ChunkCall) (first : ChunkCall) (rest : List ChunkCall), first.Restarts →
      (∀ call ∈ rest, ¬ call.Restarts) → ∀ earlier call later, first :: rest = earlier ++ call :: later →
        (call.Takes (feed (node, file) (before ++ earlier)).1 → call.totalBlocks = first.totalBlocks) ∧
        ∀ chain, call.Hands (feed (node, file) (before ++ earlier)).1 chain →
          (∀ (i : ℕ) (inside : i < chain.length), chain[i].index.toNat = i) ∧
            chain.length = first.totalBlocks.toNat) ∧
    (IndexedFrom 0 node.syncBuffer → ∀ calls (call : ChunkCall) chain, call.Hands (feed (node, file) calls).1 chain →
      (∀ (i : ℕ) (inside : i < chain.length), chain[i].index.toNat = i) ∧
        chain.length = call.totalBlocks.toNat) := by
  refine ⟨fun chain total pieces whole positive indexed split sizes => ?_,
    fun before first rest restarts still earlier call later cut => ?_, fun indexed calls call chain hands => ?_⟩
  · rcases List.eq_nil_or_concat pieces with rfl | ⟨front, last, rfl⟩
    · rw [← split] at positive
      exact absurd positive (by decide)
    · rw [List.concat_eq_append] at split sizes ⊢
      exact ⟨front, last, rfl, feed_pieces node file whole (indexedFrom_zero.mpr indexed) split sizes⟩
  · rw [feed_append]
    obtain ⟨announced, handed⟩ := @restart_segment _ (feed (node, file) before) _ _ _ _ _ restarts still cut
    refine ⟨announced, fun chain hands => ?_⟩
    rw [← indexedFrom_zero]
    exact handed chain hands
  · rw [← indexedFrom_zero]
    exact ⟨hands.indexed (feed_indexed calls indexed), hands.length_eq⟩

end

open ChunkCall in
open Fixture in
/-- The chain in two pieces, at a node with something else in its buffer. -/
theorem Fixture.two_pieces_synchronize :
    let busy := node.withBuffer [firstBlock, genesis] (some 7)
    let calls := ofPieces 2 0 [(env, [genesis]), (env, [firstBlock])]
    results (busy, .missing) calls = [.ok (some 1), .ok none] ∧
      (feed (busy, .missing) calls).1.blockchain.chain = [genesis, firstBlock] := by
  intro busy calls
  have done : (busy.synchronizeChain env.clock env.answer .missing [genesis, firstBlock]).1 = .ok () := by
    decide +kernel
  have chain : (busy.synchronizeChain env.clock env.answer .missing [genesis, firstBlock]).2.1.blockchain.chain =
      [genesis, firstBlock] := by decide +kernel
  obtain ⟨front, last, shape, run, final⟩ := (Node.chunked_sync busy .missing).1 [genesis, firstBlock] 2
    [(env, [genesis]), (env, [firstBlock])] (by decide) (by decide) (by decide) (by decide) (by decide)
  change [(env, [genesis])] ++ [(env, [firstBlock])] = front ++ [last] at shape
  have pieces := List.append_inj' shape rfl
  rw [← pieces.1, ← List.singleton_inj.mp pieces.2, done] at run
  rw [← List.singleton_inj.mp pieces.2] at final
  refine ⟨run, ?_⟩
  rw [final]
  dsimp only [Node.withBuffer]
  exact chain

open ChunkCall in
open Fixture in
/-- A chunk that announces another total is refused and changes nothing, so the sync ends with the
total it began with. -/
theorem Fixture.refused_total_is_ignored :
    let first : ChunkCall := { env, startIndex := 0, totalBlocks := 2, blocks := [genesis] }
    let other : ChunkCall := { env, startIndex := 1, totalBlocks := 3, blocks := [firstBlock] }
    let last : ChunkCall := { env, startIndex := 1, totalBlocks := 2, blocks := [firstBlock] }
    let handed := [genesis, firstBlock]
    results (node, .missing) [first, other, last] =
        [.ok (some 1), .error (.error "Sync total block count changed"), .ok none] ∧
      first.startIndex = 0 ∧ other.startIndex ≠ 0 ∧ last.startIndex ≠ 0 ∧
      last.Hands (feed (node, .missing) [first, other]).1 handed ∧
      ¬ ∀ call ∈ [first, other, last], handed.length = call.totalBlocks.toNat := by
  intro first other last handed
  have buffered : (feed (node, .missing) [first, other]).1.syncBuffer = [genesis] := by decide +kernel
  have announced : (feed (node, .missing) [first, other]).1.syncExpectedTotal = some 2 := by decide +kernel
  have takes : last.Takes (feed (node, .missing) [first, other]).1 := by
    refine ⟨by decide +kernel, fun _ => ⟨announced, ?_⟩, by decide +kernel⟩
    rw [buffered]
    decide
  have assembled : (feed (node, .missing) [first, other]).1.assembledChain 1 [firstBlock] = handed := by
    rw [Node.assembledChain, buffered]
    rfl
  refine ⟨by decide +kernel, rfl, by decide, by decide, Node.completes_iff.mpr ⟨takes, by decide, assembled⟩, ?_⟩
  intro same
  exact absurd (same other (by simp)) (by decide)

end Kybernetes
