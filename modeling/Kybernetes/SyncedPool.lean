import Kybernetes.PendingPool
import Kybernetes.ReplayPaths

namespace Kybernetes

open Node

section

variable [Crypto]

/-- A call of synchronization that succeeds and leaves the node with its own
chain and the given blocks behind it. -/
inductive Adopts (node : Node) (blocks : List Block) : Node → Prop
  | synchronizeChain {clock : Nat → SystemTime} {answer : WriteAnswer} {file file' : ChainFile} {synced : Node}
      (run : node.synchronizeChain clock answer file (node.blockchain.chain ++ blocks) = (.ok (), synced, file')) :
    Adopts node blocks synced
  | applyChainChunk {clock : Nat → SystemTime} {answer : WriteAnswer} {file file' : ChainFile} {synced : Node}
      {startIndex totalBlocks : UInt64} {chunk : List Block} {next : Option UInt64}
      (run : node.applyChainChunk clock answer file startIndex totalBlocks chunk = (.ok next, synced, file'))
      (chain : synced.blockchain.chain = node.blockchain.chain ++ blocks) : Adopts node blocks synced
  | adoptValidatedSyncCandidate {answer : WriteAnswer} {file file' : ChainFile} {synced : Node}
      {blockchain : Blockchain} {state : State} (chain : blockchain.chain = node.blockchain.chain ++ blocks)
      (run : node.adoptValidatedSyncCandidate answer file blockchain state = (.ok (), synced, file')) :
    Adopts node blocks synced

theorem Adopts.cases {node synced : Node} {blocks : List Block} (adopts : Adopts node blocks synced) :
    (blocks = [] ∧ synced.mempool = node.mempool) ∨ blocks ≠ [] ∧ synced.mempool = Mempool.new := by
  have none_of_length : (node.blockchain.chain ++ blocks).length = node.blockchain.chain.length → blocks = [] := by
    intro same
    rw [List.length_append] at same
    exact List.length_eq_zero_iff.mp (by omega)
  have some_of_length : node.blockchain.chain.length < (node.blockchain.chain ++ blocks).length → blocks ≠ [] := by
    rintro longer rfl
    simp at longer
  cases adopts with
  | @synchronizeChain clock answer file _ _ run =>
    rcases synchronizeChain_cases node clock answer file (node.blockchain.chain ++ blocks) with
      ⟨fault, failed⟩ | ⟨judged, kept⟩ | ⟨after, judged, done, _⟩
    · rw [failed] at run
      cases run
    · rw [kept] at run
      cases run
      exact Or.inl ⟨none_of_length (judgeChain_eq_none.mp judged).2.1, rfl⟩
    · rw [done] at run
      cases run
      obtain ⟨_, _, _, _, longer, _⟩ := judgeChain_some judged
      exact Or.inr ⟨some_of_length longer, rfl⟩
  | @applyChainChunk clock answer file file' _ startIndex totalBlocks chunk next run chain =>
    have advance : Advance { clock, answer } node [] file (.applyChainChunk startIndex totalBlocks chunk)
        (node.applyChainChunk clock answer file startIndex totalBlocks chunk).2.1
        (node.applyChainChunk clock answer file startIndex totalBlocks chunk).2.2 none :=
      applyChainChunk_advances startIndex totalBlocks chunk
    rw [run] at advance
    dsimp only at advance
    cases advance with
    | kept => exact Or.inl ⟨none_of_length (congrArg List.length chain).symm, rfl⟩
    | admitted asked => cases asked
    | received asked => rcases asked with asked | ⟨asked, _⟩ <;> cases asked
    | synchronized _ _ asked completes written judged longer first rooted grown shape =>
      have whole : node.blockchain.chain ++ blocks = _ := chain.symm.trans shape
      exact Or.inr ⟨some_of_length (by rw [whole]; exact longer), rfl⟩
    | adopted member => simp at member
  | @adoptValidatedSyncCandidate answer file _ _ blockchain state chain run =>
    rcases adoptValidatedSyncCandidate_cases node answer file blockchain state with ⟨result, kept⟩ | ⟨judged, done⟩
    · rw [kept] at run
      cases run
      unfold Node.adoptValidatedSyncCandidate at kept
      cases judged : node.judgeSyncCandidate blockchain with
      | error fault => simp [judged] at kept
      | ok longer =>
        cases longer with
        | false =>
          refine Or.inl ⟨none_of_length ?_, rfl⟩
          simp only [judgeSyncCandidate, bind_eq_ok, rejectIf_eq_ok, okOr_eq_ok, exists_const] at judged
          obtain ⟨_, _, _, _, _, _, judged⟩ := judged
          split at judged
          · rename_i same
            rw [← chain, same]
          · cases judged
        | true =>
          simp only [judged] at kept
          rcases saveBlockchainTo_cases answer file blockchain.chain with ⟨fault, save⟩ | ⟨_, save⟩
          · simp [save] at kept
          · have same : blockchain = node.blockchain := by
              simp only [save, Prod.mk.injEq, true_and] at kept
              exact congrArg Node.blockchain kept.1
            have longer := (judgeSyncCandidate_eq_true.mp judged).1
            rw [same] at longer
            omega
    · rw [done] at run
      cases run
      have longer := (judgeSyncCandidate_eq_true.mp judged).1
      rw [chain] at longer
      exact Or.inr ⟨some_of_length longer, rfl⟩

omit [Crypto] in
/-- The cleanup of a list of blocks keeps what none of them confirms. -/
theorem mem_foldl_removeConfirmedTransactions {mempool : Mempool} {blocks : List Block} {pending : Transaction} :
    pending ∈ (blocks.foldl removeConfirmedTransactions mempool).transactions ↔
      pending ∈ mempool.transactions ∧ ∀ confirmed ∈ normalsOf blocks, confirmed.id ≠ pending.id := by
  induction blocks generalizing mempool with
  | nil => simp [normalsOf]
  | cons block rest ih =>
    have split : normalsOf (block :: rest) = normalsOf [block] ++ normalsOf rest := by
      rw [← normalsOf_append, List.singleton_append]
    have head : pending ∈ (removeConfirmedTransactions mempool block).transactions ↔
        pending ∈ mempool.transactions ∧ ∀ confirmed ∈ normalsOf [block], confirmed.id ≠ pending.id := by
      simp only [removeConfirmedTransactions, List.mem_filter, decide_eq_true_eq, List.any_eq_true,
        Bool.and_eq_true, beq_iff_eq, not_exists, not_and, normalsOf, List.flatMap_singleton, and_imp, ne_eq]
    rw [List.foldl_cons, ih, head, split, and_assoc]
    simp only [List.mem_append, or_imp, forall_and]

/-- Synchronization and block by block delivery leave the same pending
transactions exactly when the new blocks confirm everything that is pending:
synchronization drops the rest, and with it every transaction that still
applies. -/
theorem Adopts.same_pool_iff {node received synced : Node} {now : SystemTime} {file file' : ChainFile}
    {blocks : List Block} (adopts : Adopts node blocks synced)
    (receives : node.receiveBlocks now file blocks = (true, received, file')) :
    ((∀ pending, pending ∈ synced.mempool.transactions ↔ pending ∈ received.mempool.transactions) ↔
        blocks = [] ∨ ∀ pending ∈ node.mempool.transactions,
          ∃ confirmed ∈ normalsOf blocks, confirmed.id = pending.id) ∧
      ((∀ pending ∈ node.mempool.transactions, (∀ confirmed ∈ normalsOf blocks, confirmed.id ≠ pending.id) →
          (∃ applied, received.state.tryApplyTransaction pending = .ok applied) →
          pending ∈ synced.mempool.transactions) ↔
        blocks = [] ∨ ∀ pending ∈ node.mempool.transactions,
          (∃ applied, received.state.tryApplyTransaction pending = .ok applied) →
          ∃ confirmed ∈ normalsOf blocks, confirmed.id = pending.id) := by
  obtain ⟨after, _, rfl, _⟩ := receiveBlocks_true.mp receives
  have kept : ∀ pending, pending ∈ (node.onLedger after blocks).mempool.transactions ↔
      pending ∈ node.mempool.transactions ∧ ∀ confirmed ∈ normalsOf blocks, confirmed.id ≠ pending.id :=
    fun _ => mem_foldl_removeConfirmedTransactions
  rcases adopts.cases with ⟨rfl, same⟩ | ⟨nonempty, dropped⟩
  · rw [same]
    refine ⟨⟨fun _ => Or.inl rfl, fun _ pending => Iff.rfl⟩, fun _ => Or.inl rfl, fun _ pending member _ _ => member⟩
  · have none : ∀ pending, pending ∉ synced.mempool.transactions := by simp [dropped, Mempool.new]
    simp only [none, false_iff, kept, not_and, not_forall, nonempty, false_or, imp_false, not_not, exists_prop,
      ne_eq]
    refine ⟨trivial, forall₂_congr fun pending member => ?_⟩
    constructor
    · intro lost applies
      by_contra unconfirmed
      simp only [not_exists, not_and] at unconfirmed
      exact lost unconfirmed applies
    · rintro confirms unconfirmed applies
      obtain ⟨confirmed, taken, same⟩ := confirms applies
      exact unconfirmed confirmed taken same

end

open Fixture in
/-- A block that confirms the whole pool meets the condition. -/
theorem Fixture.confirmed_pool_is_same : ∃ received synced : Node,
    Adopts pending [firstBlock] synced ∧ pending.mempool.transactions = [transfer] ∧
      ∀ p, p ∈ synced.mempool.transactions ↔ p ∈ received.mempool.transactions := by
  have receives := eq_of_first (x := pending.receiveBlocks now .missing [firstBlock]) (a := true)
    (by decide +kernel)
  have run := eq_of_first (x := pending.synchronizeChain (fun _ => now) (.ok ()) .missing
    (pending.blockchain.chain ++ [firstBlock])) (a := .ok ()) (by decide +kernel)
  have adopts := Adopts.synchronizeChain run
  have pool : pending.mempool.transactions = [transfer] := by decide +kernel
  refine ⟨_, _, adopts, pool, (adopts.same_pool_iff receives).1.mpr (Or.inr ?_)⟩
  intro p member
  rw [pool, List.mem_singleton] at member
  exact ⟨transfer, List.mem_cons_self, by rw [member]⟩

namespace Queued

open Fixture (senderKey payment transfer)

def followId : FixedBytes 32 :=
  fixedOfNat 32 0x5e273519a7e83cd48aadd34828a3491ec7ff1c5a173245c9341918f1f2a7ad4e

def followSignature : FixedBytes 64 :=
  fixedOfNat 64 0x710bd181de934acebed126a808aa2f7528dc1d0bd5d3b098d47adc1b76f185aff7b4c03b94c37083f0b7c1afd5227ce4130967df0c76f4a09de2f1949f815c0b

/-- The payment of the sender behind the transfer. -/
def follow : Transaction :=
  { payment followId 3000000 30 followSignature with nonce := 1 }

/-- The same wallets, with the digest and the signature of one more payment. -/
def table : CryptoTable :=
  { Fixture.table with
    digests := (follow.message, followId) :: Fixture.table.digests
    signatures := (senderKey, follow.message, followSignature) :: Fixture.table.signatures }

scoped instance crypto : Crypto :=
  table.crypto

/-- A node that has admitted both payments. -/
def node : Node :=
  ((Process.start Fixture.node none).run .missing
    [(Fixture.env, .insertTransaction transfer), (Fixture.env, .insertTransaction follow)]).1.node

end Queued

open Queued in
open Fixture (genesis firstBlock now) in
/-- After the block that confirms the first payment, the second still waits if
the block came on its own, and is gone if it came in a chunk. -/
theorem Queued.chunk_loses_follow :
    let received := (Queued.node.receiveBlocks now .missing [firstBlock]).2.1
    let chunk := Queued.node.applyChainChunk (fun _ => now) (.ok ()) .missing 0 2 [genesis, firstBlock]
    let synced := chunk.2.1
    (Queued.node.receiveBlocks now .missing [firstBlock]).1 = true ∧ chunk.1 = .ok none ∧
      synced.blockchain = received.blockchain ∧ synced.state = received.state ∧
      synced.blockchain.chain = Queued.node.blockchain.chain ++ [firstBlock] ∧
      received.mempool.transactions = [follow] ∧ (synced.state.tryApplyTransaction follow).isOk ∧
      synced.mempool.transactions = [] := by
  decide +kernel

end Kybernetes
