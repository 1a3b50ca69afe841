import Kybernetes.TransactionHistory

namespace Kybernetes

open Bootstrap
open Process (canonicalCandidate)

section

variable [Crypto]

/-- The ledger after a block depends on the ledger before it, on the payments
and on the validator and the index of the block. -/
theorem Ledger.settle_deterministic {before before' after after' : Ledger} {block block' : Block}
    {normals : List Transaction} (run : before.settle block normals = .ok after)
    (run' : before'.settle block' normals = .ok after') (state : before.2 = before'.2)
    (economy : before.1.economy = before'.1.economy) (validator : block.validator = block'.validator)
    (index : block.index = block'.index) : after.2 = after'.2 ∧ after.1.economy = after'.1.economy := by
  simp only [settle, state, economy, validator, index, bind_eq_ok, pure_eq_ok] at run run'
  obtain ⟨paid, applied, totals, charged, credited, credit, minted, mint, rewarded, reward, rfl⟩ := run
  obtain ⟨paid', applied', totals', charged', credited', credit', minted', mint', rewarded', reward', rfl⟩ := run'
  cases applied.symm.trans applied'
  cases charged.symm.trans charged'
  cases credit.symm.trans credit'
  cases mint.symm.trans mint'
  cases reward.symm.trans reward'
  exact ⟨rfl, rfl⟩

/-- No block behind the first has the hash of a first block: the indices differ. -/
theorem Admissible.hash_ne_root {consensus : Consensus} {blockchain : Blockchain} {block genesis : Block}
    {normals : List Transaction} (admissible : Admissible consensus blockchain block normals)
    (rooted : Rooted canonicalGenesis genesis) {inputs : Set Bytes} (free : CollisionFree inputs)
    (member : block.hashData ∈ inputs) (member' : genesis.hashData ∈ inputs) : block.hash ≠ genesis.hash := by
  intro same
  rw [admissible.hash, rooted.hash] at same
  have index := Block.hashData_index (sha256Hex_inj free member member' same)
  exact admissible.index_ne (index.trans rooted.index)

/-- Two admissible blocks with one hash agree on everything but the signature. -/
theorem Admissible.eq_of_hash {consensus consensus' : Consensus} {blockchain blockchain' : Blockchain}
    {block block' : Block} {normals normals' : List Transaction}
    (admissible : Admissible consensus blockchain block normals)
    (admissible' : Admissible consensus' blockchain' block' normals') {inputs : Set Bytes}
    (free : CollisionFree inputs) (member : block.hashData ∈ inputs) (member' : block'.hashData ∈ inputs)
    (same : block.hash = block'.hash) :
    block = { block' with validatorSignature := block.validatorSignature } ∧ normals = normals' := by
  have data : block.hashData = block'.hashData := by
    refine sha256Hex_inj free member member' ?_
    rw [admissible.hash, admissible'.hash] at same
    exact same
  have whole := Block.hashData_inj admissible.encodable admissible'.encodable data
  rw [same] at whole
  have transactions : block.transactions = block'.transactions := by rw [whole]
  rw [admissible.transactions, admissible'.transactions] at transactions
  exact ⟨whole, (List.append_inj' transactions (by simp)).1⟩

/-- The hash at the end of a chain determines the ledger, by going back along
the previous hashes to the first block. -/
theorem Grown.equal_tips {consensus : Consensus} {good good' : Block → Prop} {genesis genesis' : Block}
    {ledger ledger' : Ledger} {inputs : Set Bytes} (free : CollisionFree inputs)
    (rooted : Rooted canonicalGenesis genesis) (rooted' : Rooted canonicalGenesis genesis')
    (grown : Grown consensus good (canonicalLedger genesis) ledger)
    (grown' : Grown consensus good' (canonicalLedger genesis') ledger')
    (within : hashedData ledger.1.chain ⊆ inputs) (within' : hashedData ledger'.1.chain ⊆ inputs)
    (tips : ledger.1.chain.getLast?.map Block.hash = ledger'.1.chain.getLast?.map Block.hash) :
    ledger.2 = ledger'.2 ∧ ledger.1.economy = ledger'.1.economy := by
  induction grown generalizing ledger' with
  | start =>
    cases grown' with
    | start => exact ⟨rfl, rfl⟩
    | @block before' _ block' _ grown' accepted' admissible' settled' =>
      have shape' := (admissible'.settles settled').chain
      rw [shape', List.getLast?_concat] at tips
      refine absurd (Option.some.inj tips).symm (admissible'.hash_ne_root rooted free (within' ?_) (within ?_))
      · exact ⟨block', by simp [shape'], rfl⟩
      · exact ⟨genesis, by simp [canonicalLedger], rfl⟩
  | @block before after block normals grown accepted admissible settled ih =>
    have shape := (admissible.settles settled).chain
    have member : block.hashData ∈ inputs := within ⟨block, by simp [shape], rfl⟩
    rw [shape, List.getLast?_concat] at tips
    cases grown' with
    | start =>
      refine absurd (Option.some.inj tips) (admissible.hash_ne_root rooted' free member (within' ?_))
      exact ⟨genesis', by simp [canonicalLedger], rfl⟩
    | @block before' _ block' _ grown' accepted' admissible' settled' =>
      have shape' := (admissible'.settles settled').chain
      have member' : block'.hashData ∈ inputs := within' ⟨block', by simp [shape'], rfl⟩
      rw [shape', List.getLast?_concat] at tips
      obtain ⟨whole, rfl⟩ := admissible.eq_of_hash admissible' free member member' (Option.some.inj tips)
      obtain ⟨tip, last, link, _⟩ := admissible.follows
      obtain ⟨tip', last', link', _⟩ := admissible'.follows
      have links : block.previousHash = block'.previousHash := by rw [whole]
      have previous : before.1.chain.getLast?.map Block.hash = before'.1.chain.getLast?.map Block.hash := by
        rw [last, last', Option.map_some, Option.map_some, ← link, ← link', links]
      have sub : hashedData before.1.chain ⊆ inputs := by
        refine (hashedData_mono ?_).trans within
        rw [shape]
        exact List.subset_append_left _ _
      have sub' : hashedData before'.1.chain ⊆ inputs := by
        refine (hashedData_mono ?_).trans within'
        rw [shape']
        exact List.subset_append_left _ _
      obtain ⟨state, economy⟩ := ih grown' sub sub' previous
      exact Ledger.settle_deterministic settled settled' state economy (by rw [whole]) (by rw [whole])

/-- Equal tips mean equal ledgers, whichever way two nodes came by their
blocks. -/
theorem Process.equal_tips_equal_ledgers (validatorIdentity validatorIdentity' : Option Wallet)
    (file file' : ChainFile) (history history' : List (Environment × Operation)) (node node' : Node)
    (run : ((Process.start canonicalCandidate validatorIdentity).run file history).1.node = node)
    (run' : ((Process.start canonicalCandidate validatorIdentity').run file' history').1.node = node')
    (free : CollisionFree (hashedData (node.blockchain.chain ++ node'.blockchain.chain)))
    (tips : node.blockchain.chain.getLast?.map Block.hash = node'.blockchain.chain.getLast?.map Block.hash) :
    node.state.accounts = node'.state.accounts ∧ node.state.treasuryBalance = node'.state.treasuryBalance ∧
      node.state.burnedAmount = node'.state.burnedAmount ∧
      node.blockchain.economy.totalSupply = node'.blockchain.economy.totalSupply ∧
      node.blockchain.economy.liquidityReserve = node'.blockchain.economy.liquidityReserve := by
  subst run run'
  obtain ⟨genesis, rooted, grown⟩ := (Process.run_canonical validatorIdentity file history).descends
  obtain ⟨genesis', rooted', grown'⟩ := (Process.run_canonical validatorIdentity' file' history').descends
  obtain ⟨state, economy⟩ := Grown.equal_tips free rooted rooted' grown grown'
    (hashedData_mono (List.subset_append_left _ _)) (hashedData_mono (List.subset_append_right _ _)) tips
  simp only [Node.ledger] at state economy
  rw [state, economy]
  exact ⟨rfl, rfl, rfl, rfl, rfl⟩

end

open Fixture in
/-- A node that was offered a block it refuses has the ledger of one that was
offered none. -/
theorem Fixture.refused_block_leaves_ledger :
    (((Process.start canonicalCandidate none).run .missing [(env, .receiveBlock firstBlock)]).1.node).state.accounts =
      ((Process.start canonicalCandidate none).run .missing []).1.node.state.accounts := by
  have chain : ((Process.start canonicalCandidate none).run .missing
      [(env, .receiveBlock firstBlock)]).1.node.blockchain.chain = [canonicalGenesis] := by decide +kernel
  have chain' : ((Process.start canonicalCandidate none).run .missing []).1.node.blockchain.chain =
      [canonicalGenesis] := rfl
  refine (Process.equal_tips_equal_ledgers none none .missing .missing _ _ _ _ rfl rfl ?_ ?_).1
  · rw [chain, chain']
    have only : ∀ b ∈ [canonicalGenesis] ++ [canonicalGenesis], b = canonicalGenesis := by
      intro b member
      rcases List.mem_append.mp member with one | other
      · exact List.mem_singleton.mp one
      · exact List.mem_singleton.mp other
    exact .of_subsingleton (hashedData_subsingleton only)
  · rw [chain, chain']

end Kybernetes
