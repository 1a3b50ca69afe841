import Mathlib.Algebra.Order.BigOperators.Group.List
import Kybernetes.Base.Greedy
import Kybernetes.SelectionRun

namespace Kybernetes

namespace State

variable {state applied : State} {transaction : Transaction}

/-- A payment comes from an account that exists and opens the one it goes to. -/
theorem tryApplyTransaction_containsKey (normal : transaction.coinbase = false)
    (run : state.tryApplyTransaction transaction = .ok applied) :
    state.containsKey transaction.from = true ∧
      ∀ a, applied.containsKey a = true ↔ state.containsKey a = true ∨ a = transaction.to := by
  obtain ⟨sender, _, _, found, _, _, _, _, rfl⟩ := tryApplyTransaction_normal normal run
  have known : state.containsKey transaction.from = true := by simp [containsKey, found]
  refine ⟨known, fun a => ?_⟩
  rw [containsKey_insert { state with accounts := state.accounts.insert transaction.from _ },
    containsKey_insert state]
  simp only [Bool.or_eq_true, decide_eq_true_eq]
  constructor
  · rintro (receiver | rfl | old)
    · exact Or.inr receiver
    · exact Or.inl known
    · exact Or.inl old
  · rintro (old | receiver)
    · exact Or.inr (Or.inr old)
    · exact Or.inl receiver

theorem applyTransactionsAtomically_containsKey {transactions : List Transaction}
    (normal : ∀ transaction ∈ transactions, transaction.coinbase = false)
    (run : state.applyTransactionsAtomically transactions = .ok applied) (a : Text) :
    applied.containsKey a = true ↔
      state.containsKey a = true ∨ ∃ transaction ∈ transactions, transaction.to = a := by
  induction transactions generalizing state with
  | nil =>
    cases foldlM_nil_eq_ok.mp run
    simp
  | cons transaction rest ih =>
    obtain ⟨next, head, tail⟩ := foldlM_cons_eq_ok.mp run
    obtain ⟨_, keys⟩ := tryApplyTransaction_containsKey (normal transaction (List.mem_cons_self ..)) head
    rw [ih (fun t member => normal t (List.mem_cons_of_mem _ member)) tail, keys a]
    simp only [List.mem_cons, exists_eq_or_imp, eq_comm (a := a), or_assoc]

end State

namespace Mempool

variable {state final : State} {transaction : Transaction} {pool transactions : List Transaction}

/-- While all money together fits a word, a payment applies when its account can pay it and its
nonce is the next one: the receiver plays no part. -/
theorem applies_iff (bound : state.totalBalance < 2 ^ 64) (normal : transaction.coinbase = false) :
    Applies state transaction ↔ state.containsKey transaction.from = true ∧
      transaction.cost ≤ (state.balanceOf transaction.from).toNat ∧
      state.nonceOf transaction.from = transaction.nonce := by
  constructor
  · rintro ⟨applied, run⟩
    have pays := State.normal_pays normal run
    exact ⟨(State.tryApplyTransaction_containsKey normal run).1, pays.affordable, pays.nonce⟩
  · rintro ⟨known, affordable, nonce⟩
    obtain ⟨sender, found⟩ := Option.isSome_iff_exists.mp known
    have held : state.balanceOf transaction.from = sender.balance := by simp [State.balanceOf, found]
    have used : state.nonceOf transaction.from = sender.nonce := by simp [State.nonceOf, found]
    rw [held] at affordable
    rw [used] at nonce
    have word := sender.balance.toNat_lt
    obtain ⟨totalCost, sum⟩ := exists_eq_toNat (n := transaction.cost) (by omega)
    have cost : checkedAdd transaction.amount transaction.fee = some totalCost := checkedAdd_eq_some.mpr sum
    have rich : ¬ sender.balance < totalCost := by
      rw [UInt64.lt_iff_toNat_lt]
      omega
    have left := UInt64.toNat_sub_of_le _ _ (UInt64.not_lt.mp rich)
    let senderAccount : Account := { balance := sender.balance - totalCost, nonce := sender.nonce + 1 }
    have written := State.totalBalance_insert state transaction.from senderAccount
    have debited : ({ state with accounts := state.accounts.insert transaction.from senderAccount } :
        State).totalBalance + transaction.amount.toNat < 2 ^ 64 := by
      simp only [held, senderAccount, Transaction.cost] at written sum affordable ⊢
      omega
    obtain ⟨balance, room⟩ := State.entry_room (a := transaction.to) debited
    apply Applies.of_applyTransaction
    rw [State.applyTransaction, if_neg (by simp [normal])]
    simp only [found, cost, rich, if_false]
    rw [if_neg (not_not.mpr nonce)]
    simp only [senderAccount] at room
    rw [room]

/-- The transaction applies once some others have been applied. -/
def AppliesAfter (state : State) (before : List Transaction) (transaction : Transaction) : Prop :=
  ∃ mid, state.applyTransactionsAtomically before = .ok mid ∧ Applies mid transaction

theorem feasible_iff : Feasible (AppliesAfter state) transactions ↔
    ∃ final, state.applyTransactionsAtomically transactions = .ok final := by
  constructor
  · intro feasible
    cases feasible with
    | nil => exact ⟨state, rfl⟩
    | concat _ now =>
      obtain ⟨mid, applied, final, last⟩ := now
      exact ⟨final, foldlM_append_eq_ok.mpr ⟨mid, applied, foldlM_cons_eq_ok.mpr ⟨final, last, rfl⟩⟩⟩
  · rintro ⟨final, run⟩
    induction transactions using List.reverseRecOn generalizing final with
    | nil => exact .nil
    | append_singleton earlier last ih =>
      obtain ⟨mid, before, now⟩ := foldlM_append_eq_ok.mp run
      obtain ⟨after, step, _⟩ := foldlM_cons_eq_ok.mp now
      exact .concat (ih mid before) ⟨mid, before, after, step⟩

theorem totalAmount_le_of_subset {fewer more : List Transaction} (nodup : fewer.Nodup) (subset : fewer ⊆ more)
    (a : Text) : totalAmount (receivedBy a fewer) ≤ totalAmount (receivedBy a more) := by
  obtain ⟨part, same, sub⟩ := List.subperm_of_subset nodup subset
  have part_eq : totalAmount (receivedBy a part) = totalAmount (receivedBy a fewer) :=
    ((same.filter _).map _).sum_eq
  rw [← part_eq]
  exact ((sub.filter _).map _).sum_le_sum fun _ _ => Nat.zero_le _

/-- No two transactions of the pool share sender and nonce. -/
def Distinct (pool : List Transaction) : Prop :=
  (pool.map fun transaction => (transaction.from, transaction.nonce)).Nodup

theorem Distinct.nodup (distinct : Distinct pool) : pool.Nodup :=
  List.Nodup.of_map _ distinct

theorem Distinct.eq_of_key (distinct : Distinct pool) {first second : Transaction} (member : first ∈ pool)
    (member' : second ∈ pool) (sender : first.from = second.from) (nonce : first.nonce = second.nonce) :
    first = second :=
  List.inj_on_of_nodup_map distinct member member' (by rw [sender, nonce])

/-- Where a transaction is next after a few choices and not among more of them, its sender has
the same transactions in both: the nonces leave no other. -/
theorem Distinct.sentBy_perm (distinct : Distinct pool) {fewer more : List Transaction} {afterFewer afterMore : State}
    (few : PaysAll state fewer afterFewer) (many : PaysAll state more afterMore) (nodup : fewer.Nodup)
    (subset : fewer ⊆ more) (within : more ⊆ pool) (member : transaction ∈ pool) (missing : transaction ∉ more)
    (next : afterFewer.nonceOf transaction.from = transaction.nonce) :
    (sentBy transaction.from fewer).Perm (sentBy transaction.from more) := by
  have part : List.Subperm (sentBy transaction.from fewer) (sentBy transaction.from more) := by
    refine List.subperm_of_subset (nodup.filter _) fun other sent => ?_
    obtain ⟨inside, sender⟩ := List.mem_filter.mp sent
    exact List.mem_filter.mpr ⟨subset inside, sender⟩
  refine part.perm_of_length_le ?_
  by_contra longer
  rw [Nat.not_le] at longer
  have nonce := sequence_getElem (many.sequence transaction.from) longer
  obtain ⟨inside, sender⟩ := List.mem_filter.mp (List.getElem_mem longer)
  have same : (sentBy transaction.from more)[(sentBy transaction.from fewer).length] = transaction := by
    refine distinct.eq_of_key (within inside) member (beq_iff_eq.mp sender) ?_
    rw [nonce, ← few.nonces, next]
  rw [same] at inside
  exact missing inside

theorem appliesAfter_persistent (bound : state.totalBalance < 2 ^ 64)
    (normal : ∀ transaction ∈ pool, transaction.coinbase = false) (distinct : Distinct pool) :
    Persistent (AppliesAfter state) pool := by
  intro fewer more transaction feasible feasible' nodup subset within member missing
  rintro ⟨mid, few, applies⟩
  obtain ⟨final, many⟩ := feasible_iff.mp feasible'
  have normalMore : ∀ t ∈ more, t.coinbase = false := fun t inside => normal t (within inside)
  have normalFewer : ∀ t ∈ fewer, t.coinbase = false := fun t inside => normalMore t (subset inside)
  have payFewer := State.applyTransactionsAtomically_pays normalFewer few
  have payMore := State.applyTransactionsAtomically_pays normalMore many
  have boundMid : mid.totalBalance < 2 ^ 64 := by have := payFewer.total; omega
  have boundFinal : final.totalBalance < 2 ^ 64 := by have := payMore.total; omega
  rw [applies_iff boundMid (normal transaction member)] at applies
  obtain ⟨known, affordable, nonce⟩ := applies
  have same := distinct.sentBy_perm payFewer payMore nodup subset within member missing nonce
  refine ⟨final, many, (applies_iff boundFinal (normal transaction member)).mpr ⟨?_, ?_, ?_⟩⟩
  · rw [State.applyTransactionsAtomically_containsKey normalFewer few] at known
    rw [State.applyTransactionsAtomically_containsKey normalMore many]
    rcases known with old | ⟨payment, paid, receiver⟩
    · exact Or.inl old
    · exact Or.inr ⟨payment, subset paid, receiver⟩
  · -- more may have been received, and exactly as much has been spent
    have spent : totalCost (sentBy transaction.from fewer) = totalCost (sentBy transaction.from more) :=
      (same.map _).sum_eq
    have received := totalAmount_le_of_subset nodup subset transaction.from
    have before := payFewer.balances transaction.from
    have after := payMore.balances transaction.from
    omega
  · rw [payMore.nonces, ← same.length_eq, ← payFewer.nonces, nonce]

/-- The state after a batch depends on which payments are in it, not on their order. -/
theorem final_eq_of_perm {transactions' : List Transaction} {final' : State}
    (normal : ∀ transaction ∈ transactions, transaction.coinbase = false) (permuted : transactions.Perm transactions')
    (run : state.applyTransactionsAtomically transactions = .ok final)
    (run' : state.applyTransactionsAtomically transactions' = .ok final') : final = final' := by
  have normal' : ∀ transaction ∈ transactions', transaction.coinbase = false :=
    fun transaction member => normal transaction (permuted.mem_iff.mpr member)
  have pays := State.applyTransactionsAtomically_pays normal run
  have pays' := State.applyTransactionsAtomically_pays normal' run'
  apply State.eq_of_readings
  · intro a
    rw [Bool.eq_iff_iff, State.applyTransactionsAtomically_containsKey normal run,
      State.applyTransactionsAtomically_containsKey normal' run']
    simp only [permuted.mem_iff]
  · intro a
    have spent : totalCost (sentBy a transactions) = totalCost (sentBy a transactions') :=
      ((permuted.filter _).map _).sum_eq
    have received : totalAmount (receivedBy a transactions) = totalAmount (receivedBy a transactions') :=
      ((permuted.filter _).map _).sum_eq
    have balance := pays.balances a
    have balance' := pays'.balances a
    rw [← UInt64.toNat_inj]
    omega
  · intro a
    have count : (sentBy a transactions).length = (sentBy a transactions').length := (permuted.filter _).length_eq
    rw [pays.nonces, pays'.nonces, count]
  · rw [pays.treasury, pays'.treasury]
  · rw [pays.burned, pays'.burned]

/-- A selection is a feasible choice of the pool without repetition, maximal while the block has room. -/
theorem Outcome.choice {taken left : List Transaction} (outcome : Outcome state [] pool final taken left)
    (distinct : Distinct pool) : Feasible (AppliesAfter state) taken ∧ taken ⊆ pool ∧ taken.Nodup ∧
      (taken.length < maxNormalTransactionsPerBlock → Maximal (AppliesAfter state) pool taken) := by
  obtain ⟨chosen, same, all⟩ := outcome.divided
  rw [List.nil_append] at same
  rw [← same] at all
  obtain ⟨nodup, _⟩ := List.nodup_append.mp (all.nodup_iff.mpr distinct.nodup)
  refine ⟨feasible_iff.mpr ⟨final, outcome.applied⟩, fun t member => all.subset (List.mem_append_left _ member),
    nodup, fun room t member missing applies => ?_⟩
  obtain ⟨mid, applied, now⟩ := applies
  obtain rfl : final = mid := Except.ok.inj (outcome.applied.symm.trans applied)
  rcases List.mem_append.mp (all.mem_iff.mpr member) with chosen | left
  · exact missing chosen
  · exact outcome.maximal room t left now

/-- Where one arrival order leaves room in the block, every arrival order selects the same
transactions, and they lead to the same state. -/
theorem takeValidTransactions_confluent (state : State) (mempool mempool' : Mempool)
    (bound : state.totalBalance < 2 ^ 64)
    (nonces : ∀ a, (state.nonceOf a).toNat + mempool.transactions.length < 2 ^ 64 - 1)
    (permuted : mempool.transactions.Perm mempool'.transactions)
    (normal : ∀ transaction ∈ mempool.transactions, transaction.coinbase = false)
    (distinct : (mempool.transactions.map fun transaction => (transaction.from, transaction.nonce)).Nodup)
    (room : (mempool.takeValidTransactions state).1.length < maxNormalTransactionsPerBlock) :
    (mempool.strictTakeValidTransactions state = .ok (mempool.takeValidTransactions state) ∧
      mempool'.strictTakeValidTransactions state = .ok (mempool'.takeValidTransactions state)) ∧
    (mempool.takeValidTransactions state).1.Perm (mempool'.takeValidTransactions state).1 ∧
    ∃ final, state.applyTransactionsAtomically (mempool.takeValidTransactions state).1 = .ok final ∧
      state.applyTransactionsAtomically (mempool'.takeValidTransactions state).1 = .ok final := by
  have normal' : ∀ transaction ∈ mempool'.transactions, transaction.coinbase = false :=
    fun transaction member => normal transaction (permuted.mem_iff.mpr member)
  have distinct' : Distinct mempool'.transactions := (permuted.map _).nodup_iff.mp distinct
  have persistent := appliesAfter_persistent bound normal distinct
  obtain ⟨final, _, outcome⟩ := takeValidTransactions_outcome mempool bound normal
  obtain ⟨final', _, outcome'⟩ := takeValidTransactions_outcome mempool' bound normal'
  obtain ⟨feasible, within, nodup, maximal⟩ := outcome.choice distinct
  obtain ⟨feasible', within', nodup', maximal'⟩ := outcome'.choice distinct'
  have within'' : (mempool'.takeValidTransactions state).1 ⊆ mempool.transactions :=
    fun t member => permuted.mem_iff.mpr (within' member)
  -- the first selection is maximal, so the second is not larger and is maximal too
  have fewer := persistent.subset feasible within (maximal room) feasible' within'' nodup'
  have shorter := (List.subperm_of_subset nodup' fewer).length_le
  have maximal'' : Maximal (AppliesAfter state) mempool.transactions (mempool'.takeValidTransactions state).1 :=
    fun t member => maximal' (by omega) t (permuted.mem_iff.mp member)
  have same := persistent.perm feasible within nodup (maximal room) feasible' within'' nodup' maximal''
  have chosenNormal : ∀ t ∈ (mempool.takeValidTransactions state).1, t.coinbase = false :=
    fun t member => normal t (within member)
  refine ⟨⟨strictTakeValidTransactions_eq normal bound fun a => (nonces a).trans (by omega),
    strictTakeValidTransactions_eq normal' bound fun a => ?_⟩, same, final, outcome.applied, ?_⟩
  · rw [← permuted.length_eq]
    exact (nonces a).trans (by omega)
  · rw [final_eq_of_perm chosenNormal same outcome.applied outcome'.applied]
    exact outcome'.applied

end Mempool

open Mempool in
/-- Two orders of the same four payments. -/
theorem Fixture.unordered_confluent :
    let ordered : Mempool := { transactions := [deposit, second, onward, early] }
    (unordered.takeValidTransactions savings).1 ≠ (ordered.takeValidTransactions savings).1 ∧
      ∃ final, savings.applyTransactionsAtomically (unordered.takeValidTransactions savings).1 = .ok final ∧
        savings.applyTransactionsAtomically (ordered.takeValidTransactions savings).1 = .ok final := by
  intro ordered
  have permuted : unordered.transactions.Perm ordered.transactions := by decide
  refine ⟨by decide +kernel, ?_⟩
  obtain ⟨_, _, same⟩ := takeValidTransactions_confluent savings unordered ordered (by decide +kernel)
    (fun a => by rw [savings_nonces a]; decide) permuted (by decide) (by decide) (by decide +kernel)
  exact same

end Kybernetes
