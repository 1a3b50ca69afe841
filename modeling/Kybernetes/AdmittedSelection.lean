import Kybernetes.Confluence
import Kybernetes.SyncedPool

namespace Kybernetes

section

variable [Crypto]

/-- The node after transactions have been submitted to it one after another. -/
def Node.admitAll (self : Node) (submitted : List Transaction) : Node :=
  submitted.foldl (fun node transaction => (node.insertTransactionIntoMempool transaction).2) self

/-- What admission against a state that stays the same keeps of the pool. -/
structure AdmittedPool (state : State) (pool : List Transaction) : Prop where
  spendable : PoolSpendable state pool
  payments : ∀ transaction ∈ pool, transaction.coinbase = false ∧ transaction.amount ≠ 0
  limit : pool.length ≤ maxMempoolTransactions

omit [Crypto] in
theorem AdmittedPool.nil (state : State) : AdmittedPool state [] :=
  ⟨.nil state, fun _ member => absurd member List.not_mem_nil, Nat.zero_le _⟩

theorem addTransaction_limit {mempool mempool' : Mempool} {transaction : Transaction}
    (added : mempool.addTransaction transaction = (true, mempool')) :
    mempool.transactions.length < maxMempoolTransactions := by
  unfold Mempool.addTransaction at added
  by_contra full
  rw [if_pos (Nat.not_lt.mp full)] at added
  cases added

theorem AdmittedPool.insert {node : Node} (admitted : AdmittedPool node.state node.mempool.transactions)
    (transaction : Transaction) :
    (node.insertTransactionIntoMempool transaction).2.state = node.state ∧
      AdmittedPool node.state (node.insertTransactionIntoMempool transaction).2.mempool.transactions := by
  unfold Node.insertTransactionIntoMempool
  split
  · exact ⟨rfl, admitted⟩
  · rename_i valid
    split
    · rename_i mempool added
      have genuine := Node.validateTransactionForMempool_genuine valid
      have room := addTransaction_limit added
      have spendable := admitted.spendable.admit valid added
      obtain ⟨rfl, _⟩ := Node.addTransaction_true added
      refine ⟨rfl, spendable, fun other member => ?_, ?_⟩
      · rcases List.mem_append.mp member with old | new
        · exact admitted.payments other old
        · rw [List.mem_singleton.mp new]
          exact ⟨genuine.normal, genuine.amount_ne⟩
      · rw [List.length_append, List.length_singleton]
        omega
    · rename_i mempool refused
      rw [addTransaction_false refused]
      exact ⟨rfl, admitted⟩

theorem AdmittedPool.admitAll {node : Node} (admitted : AdmittedPool node.state node.mempool.transactions)
    (submitted : List Transaction) :
    (node.admitAll submitted).state = node.state ∧
      AdmittedPool node.state (node.admitAll submitted).mempool.transactions := by
  induction submitted generalizing node with
  | nil => exact ⟨rfl, admitted⟩
  | cons transaction rest ih =>
    obtain ⟨same, next⟩ := admitted.insert transaction
    rw [← same] at next
    obtain ⟨same', final⟩ := ih next
    rw [same] at same' final
    exact ⟨same', final⟩

namespace Mempool

variable {state final : State} {pool taken left : List Transaction}

omit [Crypto] in
theorem sentBy_split (all : (taken ++ left).Perm pool) (a : Text) :
    (sentBy a taken ++ sentBy a left).Perm (sentBy a pool) := by
  have filtered := all.filter fun t => t.from == a
  rwa [List.filter_append] at filtered

omit [Crypto] in
/-- While an address has pending transactions left, one of them has the next nonce: what has been
taken from the address has the nonces before it. -/
theorem exists_turn (admitted : AdmittedPool state pool) (pays : PaysAll state taken final)
    (all : (taken ++ left).Perm pool) {transaction : Transaction} (waiting : transaction ∈ left) :
    ∃ next ∈ sentBy transaction.from left, final.nonceOf transaction.from = next.nonce := by
  let a := transaction.from
  have split := sentBy_split all a
  have someLeft : transaction ∈ sentBy a left := List.mem_filter.mpr ⟨waiting, beq_self_eq_true _⟩
  have turn : (sentBy a taken).length < (sentBy a pool).length := by
    have lengths := split.length_eq
    rw [List.length_append] at lengths
    have positive := List.length_pos_of_mem someLeft
    omega
  have nonce := (admitted.spendable.spendable a).nonces.getElem turn
  have sent := List.getElem_mem turn
  generalize (sentBy a pool)[(sentBy a taken).length] = next at nonce sent
  have word := next.nonce.toNat_lt
  have untaken : next ∉ sentBy a taken := by
    intro member
    obtain ⟨i, used, found⟩ := List.mem_iff_getElem.mp member
    have earlier := congrArg UInt64.toNat (sequence_getElem (pays.sequence a) used)
    rw [found, toNat_add_ofNat (by omega)] at earlier
    omega
  refine ⟨next, (List.mem_append.mp (split.mem_iff.mpr sent)).resolve_left untaken, ?_⟩
  rw [pays.nonces a, ← UInt64.toNat_inj, toNat_add_ofNat (by omega), nonce]

omit [Crypto] in
/-- While an address has pending transactions left, the next one of them has not been taken and
its balance still pays for it. -/
theorem exists_next (admitted : AdmittedPool state pool) (bound : state.totalBalance < 2 ^ 64)
    (applied : state.applyTransactionsAtomically taken = .ok final) (all : (taken ++ left).Perm pool)
    {transaction : Transaction} (waiting : transaction ∈ left) :
    ∃ next ∈ left, Applies final next := by
  have normal : ∀ t ∈ taken, t.coinbase = false :=
    fun t member => (admitted.payments t (all.subset (List.mem_append_left _ member))).1
  have pays := State.applyTransactionsAtomically_pays normal applied
  obtain ⟨next, nextLeft, expected⟩ := exists_turn admitted pays all waiting
  generalize transaction.from = a at nextLeft expected
  have member : next ∈ left := (List.mem_filter.mp nextLeft).1
  have sender : next.from = a := beq_iff_eq.mp (List.mem_filter.mp nextLeft).2
  obtain ⟨normalNext, amount⟩ := admitted.payments next (all.subset (List.mem_append_right _ member))
  -- admission has reserved the costs of everything pending of the address
  have funded := (admitted.spendable.spendable a).funded
  have cost : next.cost ≤ totalCost (sentBy a left) := List.single_le_sum (fun _ _ => Nat.zero_le _) _
    (List.mem_map_of_mem nextLeft)
  have whole : totalCost (sentBy a taken) + totalCost (sentBy a left) = totalCost (sentBy a pool) := by
    have sum := ((sentBy_split all a).map Transaction.cost).sum_eq
    rwa [List.map_append, List.sum_append] at sum
  have positive : next.amount.toNat ≠ 0 := fun zero => amount (UInt64.toNat_inj.mp zero)
  have known : state.containsKey a = true := by
    by_contra unknown
    have none : state.accounts.lookup a = none := by simpa [State.containsKey] using unknown
    have zero : state.balanceOf a = 0 := by simp [State.balanceOf, none]
    rw [zero, UInt64.toNat_zero] at funded
    rw [Transaction.cost] at cost
    omega
  have boundFinal : final.totalBalance < 2 ^ 64 := by
    have total := pays.total
    omega
  refine ⟨next, member, (applies_iff boundFinal normalNext).mpr ?_⟩
  rw [sender]
  have balance := pays.balances a
  exact ⟨(State.applyTransactionsAtomically_containsKey normal applied a).mpr (Or.inl known), by omega, expected⟩

end Mempool

/-- What admission lets into the pool a block can include, up to its limit. -/
theorem Node.takeValidTransactions_admitted (node : Node) (empty : node.mempool = Mempool.new)
    (bound : node.state.totalBalance < 2 ^ 64)
    (nonces : ∀ a, (node.state.nonceOf a).toNat + 10000 < 2 ^ 64 - 1) (submitted : List Transaction) :
    let pool := (node.admitAll submitted).mempool
    pool.strictTakeValidTransactions node.state = .ok (pool.takeValidTransactions node.state) ∧
      (pool.takeValidTransactions node.state).1.length =
        min maxNormalTransactionsPerBlock pool.transactions.length := by
  have start : AdmittedPool node.state node.mempool.transactions := by
    rw [empty]
    exact .nil _
  obtain ⟨_, admitted⟩ := start.admitAll submitted
  dsimp only
  generalize (node.admitAll submitted).mempool = pool at admitted
  have normal : ∀ t ∈ pool.transactions, t.coinbase = false := fun t member => (admitted.payments t member).1
  obtain ⟨final, _, outcome⟩ := Mempool.takeValidTransactions_outcome pool bound normal
  obtain ⟨chosen, same, all⟩ := outcome.divided
  rw [List.nil_append] at same
  rw [← same] at all
  constructor
  · refine Mempool.strictTakeValidTransactions_eq normal bound fun a => ?_
    have room := nonces a
    have limit := admitted.limit
    rw [maxMempoolTransactions] at limit
    omega
  · have lengths := all.length_eq
    have count := outcome.count
    rw [List.length_append] at lengths
    by_cases room : (pool.takeValidTransactions node.state).1.length < maxNormalTransactionsPerBlock
    · have none : (pool.takeValidTransactions node.state).2.transactions = [] := by
        rw [List.eq_nil_iff_forall_not_mem]
        intro transaction waiting
        obtain ⟨next, member, applies⟩ := Mempool.exists_next admitted bound outcome.applied all waiting
        exact outcome.maximal room next member applies
      rw [none, List.length_nil] at lengths
      omega
    · omega

end

namespace Refunds

open Fixture (senderAddress recipientAddress validatorAddress transfer rival)
open Queued (follow)

def recipientKey : FixedBytes 32 :=
  fixedOfNat 32 0x8139770ea87d175f56a35466c34c7ecccb8d8a91b4ee37a25df60f5b8fc9b394

def firstId : FixedBytes 32 :=
  fixedOfNat 32 0xa9014533aaf9f6c852d5008e1bb04725facd5ed2cdf29ef60584da39beac6cb9

def firstSignature : FixedBytes 64 :=
  fixedOfNat 64 0x220f12a61db7bd064e45801b715001a2df6776ea2f68f83348c2d159805eb43d642ab3d9003988bb4a58f8642dad65d062cf1adab95ddc4a9a30e451af52e00f

def secondId : FixedBytes 32 :=
  fixedOfNat 32 0x90e9abc4774cffe7dc82bba382e5eae2782c41b6ce97bdf452cc853f8d8f8a9e

def secondSignature : FixedBytes 64 :=
  fixedOfNat 64 0xb2595ab382f02e6c9d5e0c3bc9d851afc0fd8825f4d66b0b4876ecdc7c8fb7da870e4c7e2777938a9e7357a845aa010134057d7a87822a1a5060a5f024280a00

/-- A payment of the recipient back to the sender. -/
def refund (id : FixedBytes 32) (amount fee nonce : UInt64) (signature : FixedBytes 64) : Transaction where
  id := hexEncode id.val
  «from» := hexEncode recipientAddress.val
  publicKey := hexEncode recipientKey.val
  «to» := hexEncode senderAddress.val
  amount := amount
  fee := fee
  nonce := nonce
  signature := some (hexEncode signature.val)
  coinbase := false
  rewardMarker := 0

def firstRefund : Transaction :=
  refund firstId 4000000 40 0 firstSignature

def secondRefund : Transaction :=
  refund secondId 500000 10 1 secondSignature

/-- The same wallets, with the key of the recipient and its two signed payments. -/
def table : CryptoTable :=
  { Queued.table with
    digests := (recipientKey.val, recipientAddress) :: (firstRefund.message, firstId) ::
      (secondRefund.message, secondId) :: Queued.table.digests
    signatures := (recipientKey, firstRefund.message, firstSignature) ::
      (recipientKey, secondRefund.message, secondSignature) :: Queued.table.signatures }

scoped instance crypto : Crypto :=
  table.crypto

/-- A quarter of the supply is in the account of the recipient. -/
def state : State :=
  ((State.new.createAccount (hexEncode senderAddress.val) 15000000).createAccount
    (hexEncode recipientAddress.val) 5000000).createAccount (hexEncode validatorAddress.val) 0

def node : Node :=
  Node.new Fixture.blockchain state Fixture.consensus

/-- Two wallets submit their payments in turn. The one with nonce 1 is first
tried too early, and of the two with nonce 0 the later is refused. -/
def submitted : List Transaction :=
  [follow, firstRefund, secondRefund, transfer, rival, follow]

end Refunds

open Refunds in
open Fixture (transfer) in
open Queued (follow) in
/-- What is admitted of two wallets, in whichever order, is taken as a whole. -/
theorem Refunds.admitted_payments_are_taken :
    let pool := (node.admitAll submitted).mempool
    pool.transactions = [firstRefund, secondRefund, transfer, follow] ∧
      (pool.takeValidTransactions node.state).1.length = 4 := by
  have unused : ∀ a, node.state.nonceOf a = 0 :=
    State.nonceOf_createAccount (State.nonceOf_createAccount (State.nonceOf_createAccount
      (fun _ => rfl) _ _) _ _) _ _
  have pool : (node.admitAll submitted).mempool.transactions = [firstRefund, secondRefund, transfer, follow] := by
    decide +kernel
  obtain ⟨_, taken⟩ := Node.takeValidTransactions_admitted node rfl (by decide +kernel)
    (fun a => by rw [unused a]; decide) submitted
  rw [pool] at taken
  exact ⟨pool, taken⟩

end Kybernetes
