import Kybernetes.ForkFreedom
import Kybernetes.MessageSizes
import Kybernetes.Messages
import Kybernetes.Returns

namespace Kybernetes

open Bootstrap

section

variable [Crypto]

namespace Descends

variable {good : Block → Prop} {ledger : Ledger}

/-- The index of every block is its position. -/
theorem index (descends : Descends good ledger) {position : Nat} {block : Block}
    (found : ledger.1.chain[position]? = some block) : block.index = UInt64.ofNat position := by
  obtain ⟨genesis, rooted, grown⟩ := descends
  cases position with
  | zero =>
    obtain ⟨added, shape, _⟩ := grown.chain
    have chain : ledger.1.chain = genesis :: added := shape
    rw [chain] at found
    cases found
    exact rooted.index
  | succ position =>
    obtain ⟨_, _, _, follows⟩ := grown.follows rfl found
    exact follows.index

/-- Every block is named by the digest of its data. -/
theorem hash (descends : Descends good ledger) {block : Block} (member : block ∈ ledger.1.chain) :
    block.hash = block.calculateHash := by
  obtain ⟨genesis, rooted, grown⟩ := descends
  induction grown with
  | start =>
    rw [List.mem_singleton.mp member]
    exact rooted.hash
  | block before _ admissible settled ih =>
    rw [(admissible.settles settled).chain, List.mem_append, List.mem_singleton] at member
    rcases member with earlier | rfl
    · exact ih earlier
    · exact admissible.hash

theorem shares (descends : Descends good ledger) :
    ledger.1.economy.liquidityFeePercent.toNat + ledger.1.economy.treasuryFeePercent.toNat ≤ 100 := by
  have liquidity := congrArg Economy.liquidityFeePercent descends.policy
  have treasury := congrArg Economy.treasuryFeePercent descends.policy
  simp only [Economy.policy] at liquidity treasury
  rw [liquidity, treasury]
  decide

end Descends

namespace NodeRuntime

/-- A request within the chain is answered, and the requester takes the chunk. -/
theorem chainChunkResponse_received {runtime : NodeRuntime} {good : Block → Prop}
    (descends : Descends good runtime.node.ledger) {startIndex : UInt64}
    (within : startIndex.toNat ≤ runtime.node.blockchain.chain.length) :
    ∃ message, runtime.chainChunkResponse startIndex = .ok message ∧
      receiveChunk message startIndex = .ok (.served runtime.node.blockchain.chain startIndex) := by
  have length : runtime.node.blockchain.chain.length ≤ 10 ^ 7 := descends.length_le
  have positive : 0 < runtime.node.blockchain.chain.length := descends.length_pos
  refine ⟨_, chainChunkResponse_eq_ok.mpr ⟨within, by omega, rfl⟩, ?_⟩
  generalize held : runtime.node.blockchain.chain = chain at within length positive
  have total : (UInt64.ofNat chain.length).toNat = chain.length :=
    UInt64.toNat_ofNat_of_lt' (by rw [UInt64.size]; omega)
  have count : ((chain.drop startIndex.toNat).take maxSyncBlocksPerMessage).length =
      min maxSyncBlocksPerMessage (chain.length - startIndex.toNat) := by
    rw [List.length_take, List.length_drop]
  have limit : maxSyncBlocksPerMessage = 256 := rfl
  have valid : validateChunk (.served chain startIndex) startIndex = .ok () := by
    rw [validateChunk_eq_ok]
    dsimp only [ChainChunk.served]
    rw [total]
    refine ⟨rfl, positive, by omega, by omega, fun none => ?_, fun i block found => ?_⟩
    · rw [none, List.length_nil] at count
      omega
    · have inside := (List.getElem?_eq_some_iff.mp found).1
      rw [List.getElem?_take_of_lt (by omega), List.getElem?_drop, ← held] at found
      rw [descends.index found]
      exact UInt64.toNat_ofNat_of_lt' (by rw [UInt64.size]; omega)
  have taken : ChainChunk.ofMessage (ChainChunk.served chain startIndex).message = .ok (.served chain startIndex) :=
    rfl
  simp only [receiveChunk, taken, bind_eq_ok, Except.ok.injEq, exists_eq_left', valid, exists_const, pure_eq_ok,
    and_self]

/-- A request beyond the chain is an error. -/
theorem chainChunkResponse_beyond {runtime : NodeRuntime} {startIndex : UInt64}
    (beyond : runtime.node.blockchain.chain.length < startIndex.toNat) :
    runtime.chainChunkResponse startIndex = .error (.error "Chain chunk start exceeds the chain length") := by
  unfold chainChunkResponse rejectIf
  dsimp only
  rw [if_pos beyond]
  rfl

end NodeRuntime

namespace Network

omit [Crypto] in
theorem transactionAck_reason_length : (Json.optional (some (str "Transaction rejected by node"))).length = 30 := by
  decide +kernel

/-- The client takes both kinds of acknowledgement. -/
theorem validateTransactionAck_accepted (now : SystemTime) {transactionId : Text}
    (fixed : isFixedHex transactionId hashHexLength = true) :
    validateTransactionAck now (.transactionAck transactionId true none) transactionId = true := by
  have size := NetworkMessage.transactionAck_length_le fixed true (show (Json.optional none).length ≤ 30 by decide)
  have small : ¬ maxNetworkMessageBytes < (NetworkMessage.transactionAck transactionId true none).json.length := by
    unfold maxNetworkMessageBytes
    omega
  simp only [validateTransactionAck, messageWithinLimits, if_neg small, transactionAckFieldsValid, fixed,
    beq_self_eq_true, Bool.and_self, not_true_eq_false, if_false]

theorem validateTransactionAck_rejected (now : SystemTime) {transactionId : Text}
    (fixed : isFixedHex transactionId hashHexLength = true) :
    validateTransactionAck now
      (.transactionAck transactionId false (some (str "Transaction rejected by node"))) transactionId = true := by
  have size := NetworkMessage.transactionAck_length_le fixed false transactionAck_reason_length.le
  have small : ¬ maxNetworkMessageBytes < (NetworkMessage.transactionAck transactionId false
      (some (str "Transaction rejected by node"))).json.length := by
    unfold maxNetworkMessageBytes
    omega
  have reason : (!(str "Transaction rejected by node").isEmpty &&
      decide ((str "Transaction rejected by node").length ≤ maxTransactionAckReasonLength)) = true := by
    decide +kernel
  simp only [validateTransactionAck, messageWithinLimits, if_neg small, transactionAckFieldsValid, fixed,
    beq_self_eq_true, Bool.true_and, not_true_eq_false, if_false, reason]

theorem validateAccountStateResponse_reply (now : SystemTime) {address tipHash : Text}
    (addressFixed : isFixedHex address addressHexLength = true)
    (tipFixed : isFixedHex tipHash hashHexLength = true) (balance nonce tipIndex : UInt64) :
    validateAccountStateResponse now (.accountStateResponse address balance nonce tipIndex tipHash) address =
      true := by
  have size := NetworkMessage.accountStateResponse_length_le addressFixed tipFixed balance nonce tipIndex
  have small : ¬ maxNetworkMessageBytes <
      (NetworkMessage.accountStateResponse address balance nonce tipIndex tipHash).json.length := by
    unfold maxNetworkMessageBytes
    omega
  simp only [validateAccountStateResponse, messageWithinLimits, if_neg small, addressFixed, tipFixed,
    beq_self_eq_true, Bool.and_self]

end Network

namespace NodeRuntime

/-- A one-shot client gets one answer to its transaction. After a yes the
transaction is pending or in the block that the call produced; after a no the
call has changed nothing. -/
theorem processTransaction_answers {runtime : NodeRuntime} {good : Block → Prop}
    (descends : Descends good runtime.node.ledger) (admitted : runtime.node.Admitted) (env : Environment)
    (file : ChainFile) {transaction : Transaction} (fixed : isFixedHex transaction.id hashHexLength = true) :
    (∃ outcome runtime' file',
        runtime.processTransaction env file transaction true = (.ok outcome, runtime', file') ∧
        outcome.replies = [.transactionAck transaction.id true none] ∧
        (transaction ∈ runtime'.node.mempool.transactions ∨
          ∃ block, .broadcast (.block block) ∈ outcome.actions ∧
            runtime'.node.blockchain.chain = runtime.node.blockchain.chain ++ [block] ∧
            transaction ∈ block.transactions)) ∨
      runtime.processTransaction env file transaction true =
        (.ok { actions := [.reply (.transactionAck transaction.id false
          (some (str "Transaction rejected by node")))] }, runtime, file) := by
  have reported : reportedId transaction = transaction.id := if_pos fixed
  rcases runtime.node.insertTransactionIntoMempool_cases transaction with
    ⟨error, rejected⟩ | ⟨genuine, fresh, inserted⟩
  · right
    simp only [processTransaction, rejected, reported, fixed, and_self, if_true]
  · left
    have pooled : ∀ pending, pending ∈ runtime.node.mempool.transactions ++ [transaction] ↔
        pending ∈ runtime.node.mempool.transactions ∨ pending = transaction := by simp
    let waiting : NodeRuntime := { runtime with node := { runtime.node with
      mempool := { transactions := runtime.node.mempool.transactions ++ [transaction] } } }
    have answered : runtime.processTransaction env file transaction true =
        waiting.appendPendingBlockAction env file { actions := [.reply (.transactionAck transaction.id true none),
          .broadcast (.transaction transaction)] } := by
      simp only [processTransaction, inserted, reported, if_true]
      rfl
    rw [answered]
    unfold appendPendingBlockAction
    rcases waiting.tryProducePendingBlock_cases descends.shares env.clock env.answer file with
      run | ⟨error, run⟩ | ⟨timestamp, wallet, block, blockchain, mempool, state, prepare, run⟩
    · rw [run]
      exact ⟨_, _, _, rfl, rfl, Or.inl ((pooled transaction).mpr (Or.inr rfl))⟩
    · rw [run]
      exact ⟨_, _, _, rfl, rfl, Or.inl ((pooled transaction).mpr (Or.inr rfl))⟩
    · rw [run]
      refine ⟨_, _, _, rfl, rfl, ?_⟩
      obtain ⟨normals, prepared⟩ := Node.prepareBlock_prepared (by
        intro pending member
        rcases (pooled pending).mp member with old | rfl
        · exact admitted pending old
        · exact genuine) prepare
      by_cases kept : transaction ∈ mempool.transactions
      · exact Or.inl kept
      · refine Or.inr ⟨block, by simp, (prepared.admissible.settles prepared.settled).chain, ?_⟩
        rw [prepared.cleaned] at kept
        simp only [Node.removeConfirmedTransactions, List.mem_filter, decide_eq_true_eq, not_and, not_not,
          List.any_eq_true, Bool.and_eq_true, Bool.not_eq_true, beq_iff_eq] at kept
        obtain ⟨confirmed, taken, normal, same⟩ := kept ((pooled transaction).mpr (Or.inr rfl))
        rw [prepared.admissible.transactions, List.mem_append, List.mem_singleton] at taken
        rcases taken with chosen | rfl
        · -- The producer chose it from the pool, where no other transaction has the id.
          rcases (pooled confirmed).mp (prepared.chosen confirmed chosen) with old | rfl
          · exact absurd (List.mem_map.mpr ⟨confirmed, old, same⟩) fresh
          · rw [prepared.admissible.transactions]
            exact List.mem_append_left _ chosen
        · simp [Transaction.newCoinbase] at normal

/-- Whatever a message does to a running node, operations do. -/
theorem processMessage_is_run (process : Process) (received produced : Environment) (file : ChainFile)
    (message : NetworkMessage) (oneShotClient : Bool) :
    ∃ history, process.run file history =
      ({ process with
        runtime := (process.runtime.processMessage received produced file message oneShotClient).2.1 },
        (process.runtime.processMessage received produced file message oneShotClient).2.2) := by
  have production : ∀ (runtime : NodeRuntime) (file : ChainFile) (outcome : ProcessOutcome),
      ({ process with runtime } : Process).run file [(produced, .tryProducePendingBlock)] =
        ({ process with runtime := (runtime.appendPendingBlockAction produced file outcome).2.1 },
          (runtime.appendPendingBlockAction produced file outcome).2.2) := by
    intro runtime file outcome
    unfold appendPendingBlockAction Process.run runFrom
    simp only [List.foldl_cons, List.foldl_nil, Process.step, Process.perform]
    split <;> split <;> simp_all
  cases message with
  | transaction transaction =>
    rcases process.runtime.node.insertTransactionIntoMempool_cases transaction with
      ⟨error, rejected⟩ | ⟨_, _, inserted⟩
    · refine ⟨[], ?_⟩
      simp only [processMessage, processTransaction, rejected]
      rfl
    · refine ⟨[(produced, .insertTransaction transaction), (produced, .tryProducePendingBlock)], ?_⟩
      simp only [processMessage, processTransaction, inserted]
      rw [← production]
      simp only [Process.run, runFrom, List.foldl_cons, List.foldl_nil, Process.step, Process.perform, Process.node,
        Process.withNode, inserted]
  | block block =>
    cases accepted : process.runtime.node.receiveBlockMessage (received.clock 0) received.answer file block with
    | mk result rest =>
      obtain ⟨node, file'⟩ := rest
      have first : process.run file [(received, .receiveBlockMessage block)] =
          ({ process with runtime := { process.runtime with node } }, file') := by
        simp only [Process.run, runFrom, List.foldl_cons, List.foldl_nil, Process.step, Process.perform,
          Process.node, Process.withNode, accepted]
      cases result with
      | error fault =>
        refine ⟨[(received, .receiveBlockMessage block)], ?_⟩
        rw [first]
        cases fault with
        | error | panic => simp only [processMessage, processBlock, accepted]
      | ok =>
        by_cases longer : process.runtime.node.blockchain.chain.length < node.blockchain.chain.length
        · refine ⟨[(received, .receiveBlockMessage block), (produced, .tryProducePendingBlock)], ?_⟩
          simp only [processMessage, processBlock, accepted, if_pos longer]
          rw [← production]
          simp only [Process.run, runFrom, List.foldl_cons, List.foldl_nil, Process.step, Process.perform,
            Process.node, Process.withNode, accepted]
        · refine ⟨[(received, .receiveBlockMessage block)], ?_⟩
          rw [first]
          simp only [processMessage, processBlock, accepted, if_neg longer]
  | _ => exact ⟨[], rfl⟩

end NodeRuntime

/-- What a running node answers passes the checks of the client that asked, in
every state of every data directory. -/
theorem Machine.replies_pass_checks (file : ChainFile) (events : List MachineEvent) (process : Process)
    (running : ((Machine.idle file).run events).process = some process) (received produced : Environment)
    (file' : ChainFile) (now : SystemTime) (oneShotClient : Bool) :
    let runtime := process.runtime
    let answer := fun message oneShotClient => runtime.processMessage received produced file' message oneShotClient
    (∀ message startIndex, message = .chainChunkRequest startIndex ∨ message = .syncRequest ∧ startIndex = 0 →
      if startIndex.toNat ≤ runtime.node.blockchain.chain.length then
        ∃ reply, answer message oneShotClient = (.ok { actions := [.reply reply] }, runtime, file') ∧
          NodeRuntime.receiveChunk reply startIndex = .ok (.served runtime.node.blockchain.chain startIndex)
      else ∃ error, answer message oneShotClient = (.error (.error error), runtime, file')) ∧
    (∀ address,
      if isFixedHex address addressHexLength then
        ∃ tip, runtime.node.blockchain.chain.getLast? = some tip ∧
          let reply := .accountStateResponse address (runtime.node.state.balanceOf address)
            (runtime.node.state.nonceOf address) tip.index tip.hash
          answer (.accountStateRequest address) oneShotClient =
            (.ok { actions := [.reply reply] }, runtime, file') ∧
            Network.validateAccountStateResponse now reply address = true
      else
        ∃ error, answer (.accountStateRequest address) oneShotClient = (.error (.error error), runtime, file')) ∧
    ∀ transaction, isFixedHex transaction.id hashHexLength = true →
      ∃ outcome runtime' file'' accepted reason,
        answer (.transaction transaction) true = (.ok outcome, runtime', file'') ∧
        outcome.replies = [.transactionAck transaction.id accepted reason] ∧
        Network.validateTransactionAck now (.transactionAck transaction.id accepted reason) transaction.id = true ∧
        (accepted = true → transaction ∈ runtime'.node.mempool.transactions ∨
          ∃ block, .broadcast (.block block) ∈ outcome.actions ∧
            runtime'.node.blockchain.chain = runtime.node.blockchain.chain ++ [block] ∧
            transaction ∈ block.transactions) ∧
        (accepted = false → runtime' = runtime ∧ file'' = file') := by
  intro runtime answer
  have canonical := (Machine.run_sound file events).canonical process running
  have descends : Descends (fun _ => True) runtime.node.ledger := canonical.descends
  refine ⟨fun message startIndex asked => ?_, fun address => ?_, fun transaction fixed => ?_⟩
  · have served : answer message oneShotClient =
        ((runtime.chainChunkResponse startIndex).map fun reply => { actions := [.reply reply] }, runtime, file') := by
      rcases asked with rfl | ⟨rfl, rfl⟩
      · rfl
      · rfl
    rw [served]
    split
    · rename_i within
      obtain ⟨reply, made, taken⟩ := NodeRuntime.chainChunkResponse_received descends within
      exact ⟨reply, by rw [made]; rfl, taken⟩
    · rename_i beyond
      rw [NodeRuntime.chainChunkResponse_beyond (Nat.not_le.mp beyond)]
      exact ⟨_, rfl⟩
  · have served : answer (.accountStateRequest address) oneShotClient =
        ((runtime.accountStateResponse address).map fun reply => { actions := [.reply reply] }, runtime, file') := rfl
    rw [served]
    unfold NodeRuntime.accountStateResponse
    split
    · rename_i fixed
      have nonempty : runtime.node.blockchain.chain ≠ [] := List.ne_nil_of_length_pos descends.length_pos
      have last := List.getLast?_eq_some_getLast nonempty
      have tipFixed : isFixedHex (runtime.node.blockchain.chain.getLast nonempty).hash hashHexLength = true := by
        rw [descends.hash (List.getLast_mem nonempty)]
        exact isFixedHex_sha256Hex _
      refine ⟨_, last, ?_, Network.validateAccountStateResponse_reply now fixed tipFixed _ _ _⟩
      simp only [fixed, last]
      rfl
    · rename_i unfixed
      simp only [unfixed]
      exact ⟨_, rfl⟩
  · rcases NodeRuntime.processTransaction_answers descends canonical.admitted produced file' fixed with
      ⟨outcome, runtime', file'', run, replies, kept⟩ | run
    · exact ⟨outcome, runtime', file'', true, none, run, replies,
        Network.validateTransactionAck_accepted now fixed, fun _ => kept, by simp⟩
    · exact ⟨_, runtime, file', false, _, run, rfl, Network.validateTransactionAck_rejected now fixed, by simp,
        fun _ => ⟨rfl, rfl⟩⟩

end

open Fixture in
/-- What a first start answers to a sync request. -/
theorem Fixture.first_start_replies :
    let runtime := (Process.start Process.canonicalCandidate none).runtime
    ∃ reply, runtime.processMessage env env .missing .syncRequest false =
        (.ok { actions := [.reply reply] }, runtime, .missing) ∧
      NodeRuntime.receiveChunk reply 0 = .ok (.served [canonicalGenesis] 0) := by
  intro runtime
  have served := (Machine.replies_pass_checks .missing [.initializeAt keystore env] _ Fixture.running env env
    .missing now false).1 .syncRequest 0 (Or.inr ⟨rfl, rfl⟩)
  rw [if_pos (by decide)] at served
  exact served

end Kybernetes
