import Kybernetes.Base.LeastFree
import Kybernetes.Mempool

namespace Kybernetes.Mempool

/-- The nonces from the given one on that no pending transaction of the address has. -/
def freeNonces (self : Mempool) (address : Text) (stateNonce : UInt64) : Set UInt64 :=
  {n | stateNonce ≤ n ∧ ∀ transaction ∈ self.transactions, transaction.from = address → transaction.nonce ≠ n}

/-- The nonces of a list of transactions as numbers. -/
def usedNonces (transactions : List Transaction) : List ℕ :=
  transactions.map fun transaction => transaction.nonce.toNat

variable {expected n : UInt64} {transactions : List Transaction}

/-- The scan over words is the scan over numbers, up to the last word. -/
theorem nextNonceFrom_eq_ok :
    nextNonceFrom expected transactions = .ok n ↔
      leastFree expected.toNat (usedNonces transactions) = n.toNat := by
  induction transactions generalizing expected with
  | nil => rw [nextNonceFrom, usedNonces, List.map_nil, leastFree, Except.ok.injEq, UInt64.toNat_inj]
  | cons transaction rest ih =>
    have tail : usedNonces (transaction :: rest) = transaction.nonce.toNat :: usedNonces rest := rfl
    rw [nextNonceFrom, tail, leastFree]
    by_cases stale : transaction.nonce < expected
    · rw [if_pos stale, if_pos (UInt64.lt_iff_toNat_lt.mp stale), ih]
    · rw [if_neg stale, if_neg fun below => stale (UInt64.lt_iff_toNat_lt.mpr below)]
      by_cases gap : expected < transaction.nonce
      · rw [if_pos gap, if_pos (UInt64.lt_iff_toNat_lt.mp gap), Except.ok.injEq, UInt64.toNat_inj]
      · rw [if_neg gap, if_neg fun above => gap (UInt64.lt_iff_toNat_lt.mpr above)]
        cases successor : checkedAdd expected 1 with
        | some next =>
          have value : expected.toNat + 1 = next.toNat := checkedAdd_eq_some.mp successor
          rw [value]
          exact ih
        | none =>
          -- the last word is used: the scan over numbers goes on beyond the words
          have last := checkedAdd_eq_none.mp successor
          have beyond := le_leastFree (expected.toNat + 1) (usedNonces rest)
          have word := n.toNat_lt
          rw [UInt64.toNat_one] at last
          constructor
          · intro run
            cases run
          · intro found
            omega

theorem nextNonceFrom_eq_ok_or (expected : UInt64) (transactions : List Transaction) :
    (∃ n, nextNonceFrom expected transactions = .ok n) ∨
      nextNonceFrom expected transactions = .error (.error "Nonce overflow") := by
  induction transactions generalizing expected with
  | nil => exact Or.inl ⟨expected, rfl⟩
  | cons transaction rest ih =>
    rw [nextNonceFrom]
    by_cases stale : transaction.nonce < expected
    · rw [if_pos stale]
      exact ih expected
    · rw [if_neg stale]
      by_cases gap : expected < transaction.nonce
      · rw [if_pos gap]
        exact Or.inl ⟨expected, rfl⟩
      · rw [if_neg gap]
        cases checkedAdd expected 1 with
        | some next => exact ih next
        | none => exact Or.inr rfl

theorem usedNonces_sorted (mempool : Mempool) (address : Text) :
    (usedNonces (mempool.pendingForSender address)).Pairwise (· ≤ ·) := by
  rw [usedNonces, List.pairwise_map]
  have sorted := List.pairwise_insertionSort (fun left right : Transaction => left.nonce ≤ right.nonce)
    (mempool.transactions.filter fun transaction => transaction.from == address)
  exact sorted.imp fun below => UInt64.le_iff_toNat_le.mp below

theorem toNat_mem_usedNonces {mempool : Mempool} {address : Text} :
    n.toNat ∈ usedNonces (mempool.pendingForSender address) ↔
      ∃ transaction ∈ mempool.transactions, transaction.from = address ∧ transaction.nonce = n := by
  simp only [usedNonces, pendingForSender, List.mem_map, List.mem_insertionSort, List.mem_filter, beq_iff_eq,
    UInt64.toNat_inj, and_assoc]

theorem mem_freeNonces {mempool : Mempool} {address : Text} {stateNonce : UInt64} :
    n ∈ mempool.freeNonces address stateNonce ↔
      stateNonce.toNat ≤ n.toNat ∧ n.toNat ∉ usedNonces (mempool.pendingForSender address) := by
  rw [toNat_mem_usedNonces, ← UInt64.le_iff_toNat_le]
  simp only [freeNonces, Set.mem_ofPred_eq, ne_eq, not_exists, not_and]

theorem nextNonce_isLeast {mempool : Mempool} {address : Text} {stateNonce : UInt64}
    (run : mempool.nextNonce address stateNonce = .ok n) : IsLeast (mempool.freeNonces address stateNonce) n := by
  have least := @leastFree_isLeast stateNonce.toNat _ (usedNonces_sorted mempool address)
  rw [nextNonceFrom_eq_ok.mp run] at least
  refine ⟨mem_freeNonces.mpr least.1, fun m free => ?_⟩
  exact UInt64.le_iff_toNat_le.mpr (least.2 (mem_freeNonces.mp free))

/-- The scan over numbers stops at a free word or before it, so it stops at a word. -/
theorem nextNonce_ok_of_free {mempool : Mempool} {address : Text} {stateNonce : UInt64}
    (free : n ∈ mempool.freeNonces address stateNonce) :
    ∃ m, mempool.nextNonce address stateNonce = .ok m := by
  have least := @leastFree_isLeast stateNonce.toNat _ (usedNonces_sorted mempool address)
  have below := least.2 (mem_freeNonces.mp free)
  have word := n.toNat_lt
  obtain ⟨m, value⟩ := exists_eq_toNat (Nat.lt_of_le_of_lt below word)
  exact ⟨m, nextNonceFrom_eq_ok.mpr value⟩

/-- The next nonce of an address is the least one from the confirmed nonce on that none of its pending
transactions has, whatever is pending; it is an error when there is none. -/
theorem nextNonce_least (mempool : Mempool) (address : Text) (stateNonce : UInt64) :
    (∀ n, mempool.nextNonce address stateNonce = .ok n ↔ IsLeast (mempool.freeNonces address stateNonce) n) ∧
      ((∃ message, mempool.nextNonce address stateNonce = .error (.error message)) ↔
        ∀ n, stateNonce ≤ n → ∃ transaction ∈ mempool.transactions,
          transaction.from = address ∧ transaction.nonce = n) := by
  constructor
  · intro n
    constructor
    · exact nextNonce_isLeast
    · intro least
      obtain ⟨m, run⟩ := nextNonce_ok_of_free least.1
      have first := nextNonce_isLeast run
      rw [run, UInt64.le_antisymm (first.2 least.1) (least.2 first.1)]
  · constructor
    · rintro ⟨message, failed⟩ n from_start
      by_contra unused
      have free : n ∈ mempool.freeNonces address stateNonce :=
        ⟨from_start, fun transaction member sender nonce => unused ⟨transaction, member, sender, nonce⟩⟩
      obtain ⟨m, run⟩ := nextNonce_ok_of_free free
      rw [run] at failed
      cases failed
    · intro all
      rcases nextNonceFrom_eq_ok_or stateNonce (mempool.pendingForSender address) with ⟨n, run⟩ | failed
      · obtain ⟨⟨from_start, unused⟩, _⟩ := nextNonce_isLeast run
        obtain ⟨transaction, member, sender, nonce⟩ := all n from_start
        exact absurd nonce (unused transaction member sender)
      · exact ⟨_, failed⟩

end Kybernetes.Mempool
