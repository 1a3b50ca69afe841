import Kybernetes.ProducerAgreement
import Kybernetes.TransactionHistory
import Kybernetes.Base.Strict

namespace Kybernetes

section Nonces

variable {transactions : List Transaction} {first : Nat}

/-- The nonces count up by one from the given number. -/
def CountsFrom (first : Nat) (transactions : List Transaction) : Prop :=
  transactions.map (fun transaction => transaction.nonce.toNat) = List.range' first transactions.length

theorem CountsFrom.getElem (counts : CountsFrom first transactions) {i : Nat} (bound : i < transactions.length) :
    transactions[i].nonce.toNat = first + i := by
  have whole : (transactions.map fun transaction => transaction.nonce.toNat)[i]? =
      (List.range' first transactions.length)[i]? := congrArg (fun nonces => nonces[i]?) counts
  simpa [bound] using whole

theorem CountsFrom.concat {transaction : Transaction} (counts : CountsFrom first transactions)
    (next : transaction.nonce.toNat = first + transactions.length) :
    CountsFrom first (transactions ++ [transaction]) := by
  unfold CountsFrom at counts ⊢
  rw [List.map_append, counts, List.length_append, List.length_singleton, List.range'_1_concat, List.map_singleton,
    next]

theorem CountsFrom.drop (counts : CountsFrom first transactions) (used : Nat) :
    CountsFrom (first + used) (transactions.drop used) := by
  unfold CountsFrom at counts ⊢
  rw [List.map_drop, counts, List.drop_range', Nat.mul_one, List.length_drop]

theorem CountsFrom.sorted (counts : CountsFrom first transactions) :
    transactions.Pairwise fun left right => left.nonce ≤ right.nonce := by
  have increasing : (transactions.map fun transaction => transaction.nonce.toNat).Pairwise (· < ·) := by
    rw [counts]
    exact List.pairwise_lt_range'
  rw [List.pairwise_map] at increasing
  exact increasing.imp fun below => UInt64.le_iff_toNat_le.mpr below.le

/-- The scan of `next_nonce` passes over every pending transaction. -/
theorem CountsFrom.nextNonceFrom {expected next : UInt64} (counts : CountsFrom expected.toNat transactions)
    (run : Mempool.nextNonceFrom expected transactions = .ok next) :
    next.toNat = expected.toNat + transactions.length := by
  induction transactions generalizing expected with
  | nil =>
    cases run
    rfl
  | cons transaction transactions ih =>
    unfold CountsFrom at counts
    rw [List.map_cons, List.length_cons, List.range'_succ, List.cons_eq_cons] at counts
    obtain ⟨head, tail⟩ := counts
    unfold Mempool.nextNonceFrom at run
    rw [if_neg (by rw [UInt64.lt_iff_toNat_lt]; omega), if_neg (by rw [UInt64.lt_iff_toNat_lt]; omega)] at run
    split at run
    · cases run
    · rename_i successor sum
      have value : expected.toNat + 1 = successor.toNat := checkedAdd_eq_some.mp sum
      rw [value] at tail
      rw [ih tail run, List.length_cons]
      omega

end Nonces

theorem Mempool.pendingCost_eq_ok {mempool : Mempool} {a : Text} {total : UInt64} :
    mempool.pendingCost a = .ok total ↔ totalCost (sentBy a mempool.transactions) = total.toNat := by
  have each : ∀ (sum : UInt64) (transaction : Transaction) (next : UInt64),
      ((do
        let cost ← okOr (checkedAdd transaction.amount transaction.fee) "Transaction cost overflow"
        okOr (checkedAdd sum cost) "Mempool total cost overflow") : Result UInt64) = .ok next ↔
      sum.toNat + transaction.cost = next.toNat := by
    intro sum transaction next
    simp only [bind_eq_ok, okOr_eq_ok, checkedAdd_eq_some, Transaction.cost]
    constructor
    · rintro ⟨cost, value, added⟩
      omega
    · intro whole
      have bound := next.toNat_lt
      obtain ⟨cost, value⟩ :=
        exists_eq_toNat (show transaction.amount.toNat + transaction.fee.toNat < 2 ^ 64 by omega)
      exact ⟨cost, value, by omega⟩
  rw [pendingCost, foldlM_sum_eq_ok each, UInt64.toNat_zero, Nat.zero_add]
  rfl

/-- The pending transactions of an address can all be confirmed in turn as the
state stands: their nonces continue the confirmed one and the balance pays
for all of them. -/
structure Spendable (state : State) (a : Text) (pending : List Transaction) : Prop where
  nonces : CountsFrom (state.nonceOf a).toNat pending
  funded : totalCost pending ≤ (state.balanceOf a).toNat

theorem Spendable.nil (state : State) (a : Text) : Spendable state a [] :=
  ⟨rfl, Nat.zero_le _⟩

/-- The pool holds, for every address, spendable transactions, and no id twice. -/
structure PoolSpendable (state : State) (pool : List Transaction) : Prop where
  spendable : ∀ a, Spendable state a (sentBy a pool)
  distinct : (pool.map Transaction.id).Nodup

theorem PoolSpendable.nil (state : State) : PoolSpendable state [] :=
  ⟨fun a => .nil state a, List.nodup_nil⟩

theorem PoolSpendable.nextNonce {mempool : Mempool} {state : State} {a : Text} {next : UInt64}
    (pool : PoolSpendable state mempool.transactions)
    (run : mempool.nextNonce a (state.nonceOf a) = .ok next) :
    next.toNat = (state.nonceOf a).toNat + (sentBy a mempool.transactions).length := by
  have counts := (pool.spendable a).nonces
  have sorted : mempool.pendingForSender a = sentBy a mempool.transactions :=
    List.Pairwise.insertionSort_eq counts.sorted
  unfold Mempool.nextNonce at run
  rw [sorted] at run
  exact counts.nextNonceFrom run

theorem sentBy_concat (a : Text) (transactions : List Transaction) (transaction : Transaction) :
    sentBy a (transactions ++ [transaction]) =
      if transaction.from = a then sentBy a transactions ++ [transaction] else sentBy a transactions := by
  by_cases sender : transaction.from = a
  · simp [sentBy, sender]
  · simp [sentBy, sender]

/-- Nothing is confirmed with the id, or with the sender and the nonce, of a
pending transaction but that transaction itself, whatever its signature. -/
def NoRival (pool confirmed : List Transaction) : Prop :=
  ∀ pending ∈ pool, ∀ transaction ∈ confirmed,
    transaction.id = pending.id ∨ transaction.from = pending.from ∧ transaction.nonce = pending.nonce →
      transaction = { pending with signature := transaction.signature }

/-- The pending transactions that were not confirmed, judged by their ids. -/
def unconfirmed (pool confirmed : List Transaction) : List Transaction :=
  pool.filter fun pending => confirmed.all fun transaction => transaction.id ≠ pending.id

section Confirmation

variable {pool confirmed : List Transaction} {a : Text} {first : UInt64}

/-- What was confirmed for an address at some place is what was pending for it
at that place. -/
theorem NoRival.getElem (noRival : NoRival pool confirmed) (counts : CountsFrom first.toNat (sentBy a pool))
    (sequence : (sentBy a confirmed).map Transaction.nonce = noncesFrom first (sentBy a confirmed).length) {i : Nat}
    (pending : i < (sentBy a pool).length) (used : i < (sentBy a confirmed).length) :
    (sentBy a confirmed)[i] = { (sentBy a pool)[i] with signature := (sentBy a confirmed)[i].signature } := by
  obtain ⟨held, sender⟩ := List.mem_filter.mp (List.getElem_mem pending)
  obtain ⟨taken, sender'⟩ := List.mem_filter.mp (List.getElem_mem used)
  refine noRival _ held _ taken (Or.inr ⟨(beq_iff_eq.mp sender').trans (beq_iff_eq.mp sender).symm, ?_⟩)
  have nonce := counts.getElem pending
  have bound := (sentBy a pool)[i].nonce.toNat_lt
  rw [sequence_getElem sequence used, ← UInt64.toNat_inj, toNat_add_ofNat (by omega), nonce]

/-- The cleanup by id takes from the front of what an address has pending as
many transactions as were confirmed for it. -/
theorem NoRival.sentBy_unconfirmed (noRival : NoRival pool confirmed)
    (counts : CountsFrom first.toNat (sentBy a pool))
    (sequence : (sentBy a confirmed).map Transaction.nonce = noncesFrom first (sentBy a confirmed).length) :
    sentBy a (unconfirmed pool confirmed) = (sentBy a pool).drop (sentBy a confirmed).length := by
  have swapped : sentBy a (unconfirmed pool confirmed) = unconfirmed (sentBy a pool) confirmed := by
    unfold sentBy unconfirmed
    rw [List.filter_filter, List.filter_filter]
    exact List.filter_congr fun _ _ => Bool.and_comm _ _
  rw [swapped]
  unfold unconfirmed
  conv_lhs => rw [← List.take_append_drop (sentBy a confirmed).length (sentBy a pool)]
  rw [List.filter_append]
  have front : (List.take (sentBy a confirmed).length (sentBy a pool)).filter
      (fun pending => confirmed.all fun transaction => transaction.id ≠ pending.id) = [] := by
    rw [List.filter_eq_nil_iff]
    intro pending member all
    obtain ⟨i, bound, rfl⟩ := List.mem_take_iff_getElem.mp member
    rw [Nat.lt_min] at bound
    have same := congrArg Transaction.id (noRival.getElem counts sequence bound.2 bound.1)
    have taken := (List.mem_filter.mp (List.getElem_mem bound.1)).1
    exact of_decide_eq_true (List.all_eq_true.mp all _ taken) same
  have back : (List.drop (sentBy a confirmed).length (sentBy a pool)).filter
      (fun pending => confirmed.all fun transaction => transaction.id ≠ pending.id) =
        List.drop (sentBy a confirmed).length (sentBy a pool) := by
    rw [List.filter_eq_self]
    intro pending member
    obtain ⟨i, bound, rfl⟩ := List.mem_drop_iff_getElem.mp member
    rw [Nat.add_comm] at bound
    refine List.all_eq_true.mpr fun transaction taken => decide_eq_true fun same => ?_
    -- a confirmed transaction with this id would have an earlier nonce
    obtain ⟨held, sender⟩ := List.mem_filter.mp (List.getElem_mem bound)
    have equal := noRival _ held transaction taken (Or.inl same)
    have sentToo : transaction ∈ sentBy a confirmed := by
      refine List.mem_filter.mpr ⟨taken, ?_⟩
      rw [equal]
      exact sender
    obtain ⟨j, used, found⟩ := List.mem_iff_getElem.mp sentToo
    have nonce := counts.getElem bound
    have bounded := (sentBy a pool)[(sentBy a confirmed).length + i].nonce.toNat_lt
    have earlier := congrArg UInt64.toNat (sequence_getElem sequence used)
    rw [found, toNat_add_ofNat (by omega)] at earlier
    have later := congrArg (fun t => t.nonce.toNat) equal
    simp only at later
    omega
  rw [front, back, List.nil_append]

/-- As long as an address has more pending than was confirmed for it, the
confirmed ones cost what the pending ones in front did. -/
theorem NoRival.totalCost_take (noRival : NoRival pool confirmed)
    (counts : CountsFrom first.toNat (sentBy a pool))
    (sequence : (sentBy a confirmed).map Transaction.nonce = noncesFrom first (sentBy a confirmed).length)
    (fewer : (sentBy a confirmed).length ≤ (sentBy a pool).length) :
    totalCost ((sentBy a pool).take (sentBy a confirmed).length) = totalCost (sentBy a confirmed) := by
  unfold totalCost
  congr 1
  refine List.ext_getElem ?_ fun i _ used => ?_
  · simpa using fewer
  · rw [List.length_map] at used
    have same := congrArg Transaction.cost (noRival.getElem counts sequence (Nat.lt_of_lt_of_le used fewer) used)
    simp only [List.getElem_map, List.getElem_take]
    exact same.symm

end Confirmation

section

variable [Crypto]

/-- Admission checks exactly what keeps the pool spendable. -/
theorem PoolSpendable.admit {state : State} {economy : Economy} {mempool mempool' : Mempool}
    {transaction : Transaction} (pool : PoolSpendable state mempool.transactions)
    (valid : Node.validateTransactionForMempool transaction state economy mempool = .ok ())
    (added : mempool.addTransaction transaction = (true, mempool')) :
    PoolSpendable state mempool'.transactions := by
  obtain ⟨rfl, fresh⟩ := Node.addTransaction_true added
  simp only [Node.validateTransactionForMempool, bind_eq_ok, rejectIf_eq_ok, okOr_eq_ok, exists_const, ne_eq,
    not_not, checkedAdd_eq_some] at valid
  obtain ⟨_, base, expected, next, nonce, cost, costEq, reserved, pendingCost, total, totalEq, funded⟩ := valid
  refine ⟨fun a => ?_, ?_⟩
  · rw [sentBy_concat]
    split
    · rename_i sender
      subst a
      have before := pool.spendable transaction.from
      have pending := Mempool.pendingCost_eq_ok.mp pendingCost
      have enough := UInt64.le_iff_toNat_le.mp (UInt64.not_lt.mp funded)
      refine ⟨before.nonces.concat (by rw [nonce]; exact pool.nextNonce next), ?_⟩
      simp only [totalCost, List.map_append, List.sum_append, List.map_singleton, List.sum_singleton,
        Transaction.cost] at pending ⊢
      omega
    · exact pool.spendable a
  · rw [List.map_append, List.map_singleton]
    refine pool.distinct.append (List.nodup_singleton _) ?_
    intro id old new
    rw [List.mem_singleton.mp new] at old
    exact fresh old

theorem Admissible.removeConfirmedTransactions {consensus : Consensus} {blockchain : Blockchain} {block : Block}
    {normals : List Transaction} (admissible : Admissible consensus blockchain block normals) (mempool : Mempool) :
    (Node.removeConfirmedTransactions mempool block).transactions = unconfirmed mempool.transactions normals := by
  unfold Node.removeConfirmedTransactions unconfirmed
  refine List.filter_congr fun pending _ => ?_
  rw [← Bool.coe_iff_coe]
  simp only [decide_eq_true_eq, List.any_eq_true, Bool.and_eq_true, beq_iff_eq, List.all_eq_true,
    ne_eq, not_exists, not_and, admissible.transactions, List.mem_append, List.mem_singleton]
  constructor
  · intro none transaction member
    exact none transaction (Or.inl member) (by simp [(admissible.genuine transaction member).normal])
  · rintro all transaction (member | rfl) normal
    · exact all transaction member
    · exact absurd rfl normal

omit [Crypto] in
/-- A block without a rival leaves the pool spendable on the ledger it
leads to. -/
theorem PoolSpendable.confirm {before after : Ledger} {block : Block} {normals pool : List Transaction}
    (spendable : PoolSpendable before.2 pool) (settles : Settles before block normals after)
    (noRival : NoRival pool normals) : PoolSpendable after.2 (unconfirmed pool normals) := by
  refine ⟨fun a => ?_, spendable.distinct.sublist (List.filter_sublist.map _)⟩
  have own := spendable.spendable a
  rw [noRival.sentBy_unconfirmed own.nonces (settles.sequence a)]
  by_cases fewer : (sentBy a normals).length < (sentBy a pool).length
  · have nonce : (after.2.nonceOf a).toNat = (before.2.nonceOf a).toNat + (sentBy a normals).length := by
      -- a pending transaction has this nonce, so the count has not wrapped around
      have last := own.nonces.getElem fewer
      have bound := (sentBy a pool)[(sentBy a normals).length].nonce.toNat_lt
      rw [settles.nonces a]
      exact toNat_add_ofNat (by omega)
    refine ⟨by rw [nonce]; exact own.nonces.drop _, ?_⟩
    have taken := noRival.totalCost_take own.nonces (settles.sequence a) fewer.le
    have split : totalCost (sentBy a pool) = totalCost ((sentBy a pool).take (sentBy a normals).length) +
        totalCost ((sentBy a pool).drop (sentBy a normals).length) := by
      unfold totalCost
      rw [← List.sum_append, ← List.map_append, List.take_append_drop]
    have funded := own.funded
    have balance := settles.balances a
    omega
  · rw [List.drop_eq_nil_of_le (not_lt.mp fewer)]
    exact .nil _ a

omit [Crypto] in
/-- What is chosen from a spendable pool has no rival in it. -/
theorem PoolSpendable.noRival {state : State} {pool chosen : List Transaction} (spendable : PoolSpendable state pool)
    (sub : ∀ transaction ∈ chosen, transaction ∈ pool) : NoRival pool chosen := by
  rintro pending held transaction taken (id | ⟨sender, nonce⟩)
  · rw [List.inj_on_of_nodup_map spendable.distinct (sub transaction taken) held id]
  · have counts := (spendable.spendable pending.from).nonces
    have distinct : ((sentBy pending.from pool).map fun t => t.nonce.toNat).Nodup := by
      rw [counts]
      exact List.nodup_range'
    have own : pending ∈ sentBy pending.from pool := List.mem_filter.mpr ⟨held, beq_self_eq_true _⟩
    have other : transaction ∈ sentBy pending.from pool :=
      List.mem_filter.mpr ⟨sub transaction taken, beq_iff_eq.mpr sender⟩
    rw [List.inj_on_of_nodup_map distinct other own (congrArg UInt64.toNat nonce)]

/-- The block is one that the node takes over from a peer, with a clock and a
disk that let it pass. -/
def Takes (node : Node) (event : Environment × Operation) (block : Block) : Prop :=
  Offers node event.2 block ∧ event.1.answer = .ok () ∧
    ∃ after, node.validateAndApplyBlock (event.1.clock 0) block node.blockchain node.state = .ok after

/-- A block taken over from a peer confirms no rival of a pending transaction. -/
def ConfirmsNoRival (config : Process × ChainFile) (event : Environment × Operation) : Prop :=
  ∀ block, Takes config.1.node event block →
    NoRival config.1.node.mempool.transactions (normalsOf [block])

/-- What a run keeps of a process whose pool was filled through admission. -/
structure Process.PoolKept (process : Process) : Prop where
  admitted : process.node.Admitted
  spendable : PoolSpendable process.node.state process.node.mempool.transactions

theorem Process.PoolKept.perform {process : Process} {env : Environment} {operation : Operation} {file : ChainFile}
    (before : process.PoolKept) (condition : ConfirmsNoRival (process, file) (env, operation)) :
    (process.perform env operation file).process.PoolKept := by
  have advance := perform_advances env operation file before.admitted
  refine ⟨advance.admitted' before.admitted, ?_⟩
  generalize (process.perform env operation file).process.node = node',
    (process.perform env operation file).file = file',
    (process.perform env operation file).produced = produced at advance
  cases advance with
  | kept => exact before.spendable
  | admitted asked valid added => exact before.spendable.admit valid added
  | received asked written attested future admissible settled =>
    rename_i block normals after
    have accepted : process.node.validateAndApplyBlock (env.clock 0) block process.node.blockchain
        process.node.state = .ok after :=
      Node.validateAndApplyBlock_eq_ok.mpr ⟨attested, future, normals, admissible, settled⟩
    have noRival := condition block ⟨asked, written, after, accepted⟩
    rw [admissible.normalsOf] at noRival
    dsimp only
    rw [admissible.removeConfirmedTransactions]
    have settles : Settles process.node.ledger block normals after := admissible.settles settled
    exact before.spendable.confirm settles noRival
  | produced timely prepared =>
    dsimp only
    rw [prepared.cleaned, prepared.admissible.removeConfirmedTransactions]
    exact before.spendable.confirm (prepared.admissible.settles prepared.settled)
      (before.spendable.noRival prepared.chosen)
  | synchronized | adopted => exact .nil _

/-- In every run in which no block confirms a rival of a pending transaction,
the pending transactions of every address stay spendable. -/
theorem Process.run_spendable (blockchain : Blockchain) (state : State) (consensus : Consensus)
    (validatorIdentity : Option Wallet) (file : ChainFile) (history : List (Environment × Operation))
    (along : Along Process.step ConfirmsNoRival
      (Process.start (Node.new blockchain state consensus) validatorIdentity, file) history) (a : Text) :
    let node := ((Process.start (Node.new blockchain state consensus) validatorIdentity).run file history).1.node
    let pending := sentBy a node.mempool.transactions
    pending.map (fun transaction => transaction.nonce.toNat) =
        List.range' (node.state.nonceOf a).toNat pending.length ∧
      totalCost pending ≤ (node.state.balanceOf a).toNat := by
  have start : (Process.start (Node.new blockchain state consensus) validatorIdentity).PoolKept := by
    refine ⟨?_, .nil _⟩
    simp [Process.start, Process.node, Node.new, Node.Admitted, Mempool.new]
  have kept := along.invariant (fun config : Process × ChainFile => config.1.PoolKept)
    (fun config event before condition => before.perform condition) start
  have spendable := kept.spendable.spendable a
  exact ⟨spendable.nonces, spendable.funded⟩

end

open Fixture in
/-- A block confirms the payment with the sender and the nonce of one that is
pending. The pending one stays, with a nonce that is used up. -/
theorem Fixture.rival_stays_pending :
    let sender := hexEncode senderAddress.val
    let node := ((Process.start node none).run .missing
      [(env, .insertTransaction rival), (env, .receiveBlock firstBlock)]).1.node
    let pending := sentBy sender node.mempool.transactions
    pending = [rival] ∧ node.state.nonceOf sender = 1 ∧
      ¬ pending.map (fun transaction => transaction.nonce.toNat) =
        List.range' (node.state.nonceOf sender).toNat pending.length := by
  decide +kernel

open Fixture in
/-- A block that confirms the pending payment itself meets the condition. -/
theorem Fixture.confirmed_payment_leaves_pool :
    let node := ((Process.start (Node.new blockchain state consensus) none).run .missing
      [(env, .insertTransaction transfer), (env, .receiveBlock firstBlock)]).1.node
    let pending := sentBy (hexEncode senderAddress.val) node.mempool.transactions
    pending.map (fun transaction => transaction.nonce.toNat) =
        List.range' (node.state.nonceOf (hexEncode senderAddress.val)).toNat pending.length ∧
      totalCost pending ≤ (node.state.balanceOf (hexEncode senderAddress.val)).toNat := by
  have pool : (Process.step (Process.start (Node.new blockchain state consensus) none, .missing)
      (env, .insertTransaction transfer)).1.node.mempool.transactions = [transfer] := by decide +kernel
  have confirmed : normalsOf [firstBlock] = [transfer] := by decide +kernel
  have along : Along Process.step ConfirmsNoRival
      (Process.start (Node.new blockchain state consensus) none, .missing)
      [(env, .insertTransaction transfer), (env, .receiveBlock firstBlock)] := by
    refine ⟨?_, ?_, trivial⟩
    · rintro block ⟨offered | ⟨offered, _⟩, _⟩
      · cases offered
      · cases offered
    · rintro block ⟨offered | ⟨offered, _⟩, _⟩
      · cases offered
        rw [pool, confirmed]
        intro pending held transaction taken _
        rw [List.mem_singleton.mp held, List.mem_singleton.mp taken]
      · cases offered
  exact Process.run_spendable blockchain state consensus none .missing _ along (hexEncode senderAddress.val)

end Kybernetes
