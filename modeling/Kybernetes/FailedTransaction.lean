import Kybernetes.SelectionRun

namespace Kybernetes

/-- Everything that can be read from the one state can be read from the other. -/
structure SameReadings (before after : State) : Prop where
  existence : ∀ a, after.containsKey a = before.containsKey a
  balances : ∀ a, after.balanceOf a = before.balanceOf a
  nonces : ∀ a, after.nonceOf a = before.nonceOf a
  treasury : after.treasuryBalance = before.treasuryBalance
  burned : after.burnedAmount = before.burnedAmount

/-- The payment passes every check of its sender, and the amount does not fit in the account
of another receiver. -/
structure ReceiverOverflows (state : State) (transaction : Transaction) : Prop where
  normal : transaction.coinbase = false
  known : state.containsKey transaction.from = true
  affordable : transaction.cost ≤ (state.balanceOf transaction.from).toNat
  nonce : state.nonceOf transaction.from = transaction.nonce
  other : transaction.to ≠ transaction.from
  overflow : 2 ^ 64 ≤ (state.balanceOf transaction.to).toNat + transaction.amount.toNat

namespace State

variable {state left : State} {transaction : Transaction}

theorem sameReadings_refl (state : State) : SameReadings state state :=
  ⟨fun _ => rfl, fun _ => rfl, fun _ => rfl, rfl, rfl⟩

/-- A failed reward finds an account, since an empty one has room, and writes it back as it was. -/
theorem applyTransaction_coinbase_failed {fault : Fault} (coinbase : transaction.coinbase = true)
    (failed : state.applyTransaction transaction = (.error fault, left)) : left = state := by
  unfold applyTransaction at failed
  rw [if_pos coinbase] at failed
  cases found : state.accounts.lookup transaction.to with
  | none =>
    have room : ∃ balance, checkedAdd (entryOrInsert state.accounts transaction.to).balance transaction.amount =
        some balance := by
      refine ⟨transaction.amount, checkedAdd_eq_some.mpr ?_⟩
      rw [entryOrInsert, found]
      exact Nat.zero_add _
    obtain ⟨balance, sum⟩ := room
    simp [sum] at failed
  | some account =>
    cases sum : checkedAdd (entryOrInsert state.accounts transaction.to).balance transaction.amount with
    | some balance => simp [sum] at failed
    | none =>
      simp only [sum, Prod.mk.injEq] at failed
      rw [← failed.2, entryOrInsert, found, Option.getD_some, Finmap.insert_lookup_self found]

/-- The account of the receiver as the method finds it, after the sender has been debited. -/
theorem entry_after_debit (account : Account) :
    (entryOrInsert (state.accounts.insert transaction.from account) transaction.to).balance =
      if transaction.to = transaction.from then account.balance else state.balanceOf transaction.to := by
  have read := entry_balance { state with accounts := state.accounts.insert transaction.from account } transaction.to
  rw [balanceOf_insert] at read
  exact read

theorem applyTransaction_normal_failed {fault : Fault} (normal : transaction.coinbase = false)
    (failed : state.applyTransaction transaction = (.error fault, left)) :
    left = state ∨ ReceiverOverflows state transaction := by
  unfold applyTransaction at failed
  rw [if_neg (by simp [normal])] at failed
  cases found : state.accounts.lookup transaction.from with
  | none =>
    simp only [found, Prod.mk.injEq] at failed
    exact Or.inl failed.2.symm
  | some sender =>
    cases cost : checkedAdd transaction.amount transaction.fee with
    | none =>
      simp only [found, cost, Prod.mk.injEq] at failed
      exact Or.inl failed.2.symm
    | some totalCost =>
      simp only [found, cost] at failed
      by_cases poor : sender.balance < totalCost
      · rw [if_pos poor, Prod.mk.injEq] at failed
        exact Or.inl failed.2.symm
      · by_cases stale : sender.nonce ≠ transaction.nonce
        · rw [if_neg poor, if_pos stale, Prod.mk.injEq] at failed
          exact Or.inl failed.2.symm
        · rw [if_neg poor, if_neg stale] at failed
          let debited : Account := { balance := sender.balance - totalCost, nonce := sender.nonce + 1 }
          have receiver := @entry_after_debit state transaction debited
          have spent := checkedAdd_eq_some.mp cost
          have rest := UInt64.toNat_sub_of_le _ _ (UInt64.not_lt.mp poor)
          rw [UInt64.lt_iff_toNat_lt] at poor
          have held : state.balanceOf transaction.from = sender.balance := by simp [balanceOf, found]
          cases sum : checkedAdd (entryOrInsert (state.accounts.insert transaction.from debited)
              transaction.to).balance transaction.amount with
          | some balance =>
            simp only [debited] at sum
            simp [sum] at failed
          | none =>
            rw [checkedAdd_eq_none, receiver] at sum
            have word := sender.balance.toNat_lt
            -- a sender that pays itself gets back less than it had
            have other : transaction.to ≠ transaction.from := by
              intro same
              rw [if_pos same] at sum
              simp only [debited] at sum
              omega
            rw [if_neg other] at sum
            refine Or.inr ⟨normal, by simp [containsKey, found], ?_, ?_, other, sum⟩
            · rw [held, Transaction.cost]
              omega
            · simpa [nonceOf, found] using not_not.mp stale

/-- The sender has been debited, and its nonce used, when the receiver is found to have no room. -/
theorem applyTransaction_overflows (overflows : ReceiverOverflows state transaction) :
    ∃ left, state.applyTransaction transaction = (.error (.error "Receiver balance overflow"), left) ∧
      left.nonceOf transaction.from = state.nonceOf transaction.from + 1 := by
  obtain ⟨normal, known, affordable, nonce, other, overflow⟩ := overflows
  obtain ⟨sender, found⟩ := Option.isSome_iff_exists.mp known
  have held : state.balanceOf transaction.from = sender.balance := by simp [balanceOf, found]
  have used : state.nonceOf transaction.from = sender.nonce := by simp [nonceOf, found]
  rw [held] at affordable
  rw [used] at nonce
  have word := sender.balance.toNat_lt
  obtain ⟨totalCost, spent⟩ := exists_eq_toNat (n := transaction.cost) (by omega)
  have cost : checkedAdd transaction.amount transaction.fee = some totalCost := checkedAdd_eq_some.mpr spent
  have rich : ¬ sender.balance < totalCost := by
    rw [UInt64.lt_iff_toNat_lt]
    omega
  let debited : Account := { balance := sender.balance - totalCost, nonce := sender.nonce + 1 }
  have full : checkedAdd (entryOrInsert (state.accounts.insert transaction.from debited) transaction.to).balance
      transaction.amount = none := by
    rw [checkedAdd_eq_none, entry_after_debit, if_neg other]
    exact overflow
  let accounts := state.accounts.insert transaction.from debited
  refine ⟨{ state with accounts := accounts.insert transaction.to (entryOrInsert accounts transaction.to) }, ?_, ?_⟩
  · rw [applyTransaction, if_neg (by simp [normal])]
    simp only [found, cost, rich, if_false]
    rw [if_neg (not_not.mpr nonce)]
    simp only [debited] at full
    rw [full]
  · rw [nonceOf_insert { state with accounts := accounts }, if_neg other.symm, nonceOf_insert, if_pos rfl, used]

end State

/-- An error leaves the state as it was exactly when it is not the receiver, checked after the
sender has been debited, that has no room. -/
theorem State.applyTransaction_error_iff (state : State) (transaction : Transaction) :
    (∀ error left, state.applyTransaction transaction = (.error (.error error), left) → SameReadings state left) ↔
      ¬ ReceiverOverflows state transaction := by
  constructor
  · intro unchanged overflows
    obtain ⟨left, failed, nonce⟩ := applyTransaction_overflows overflows
    rw [(unchanged _ left failed).nonces] at nonce
    have counted := congrArg UInt64.toNat nonce
    rw [UInt64.toNat_add, UInt64.toNat_one] at counted
    have word := (state.nonceOf transaction.from).toNat_lt
    omega
  · intro fits error left failed
    cases coinbase : transaction.coinbase with
    | true =>
      rw [applyTransaction_coinbase_failed coinbase failed]
      exact sameReadings_refl state
    | false =>
      rw [(applyTransaction_normal_failed coinbase failed).resolve_right fits]
      exact sameReadings_refl state

namespace Fixture

/-- One account is full. -/
def crowded : State :=
  (State.new.createAccount (str "a") 10).createAccount (str "b") 18446744073709551615

/-- The second payment of the pool applies to the state, but not to what the failure of the first
one leaves of it. -/
theorem crowded_failure_is_seen :
    let failing := unsignedPayment (str "a") (str "b") 5 0
    let sound := unsignedPayment (str "a") (str "c") 5 0
    let failed := crowded.applyTransaction failing
    failed.1 = .error (.error "Receiver balance overflow") ∧ failed.2.balanceOf (str "a") = 4 ∧
      crowded.balanceOf (str "a") = 10 ∧ failed.2.nonceOf (str "a") = 1 ∧ crowded.nonceOf (str "a") = 0 ∧
      (crowded.tryApplyTransaction sound).isOk ∧
      (Mempool.takeValidTransactions { transactions := [failing, sound] } crowded).1 = [] ∧
      ¬ ∀ error left, crowded.applyTransaction failing = (.error (.error error), left) →
        SameReadings crowded left := by
  intro failing sound failed
  refine ⟨by decide +kernel, by decide +kernel, by decide +kernel, by decide +kernel, by decide +kernel,
    by decide +kernel, by decide +kernel, fun unchanged => ?_⟩
  have error : failed.1 = .error (.error "Receiver balance overflow") := by decide +kernel
  have used : failed.2.nonceOf (str "a") ≠ crowded.nonceOf (str "a") := by decide +kernel
  exact used ((unchanged _ failed.2 (Prod.ext error rfl)).nonces _)

end Fixture

end Kybernetes
