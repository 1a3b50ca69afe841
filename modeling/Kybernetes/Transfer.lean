import Kybernetes.State

namespace Kybernetes

/-- All money held in accounts. -/
def State.totalBalance (state : State) : Nat :=
  state.accounts.sumBy fun account => account.balance.toNat

/-- What a normal transaction takes from its sender. -/
def Transaction.cost (transaction : Transaction) : Nat :=
  transaction.amount.toNat + transaction.fee.toNat

namespace State

variable {state applied : State} {transaction : Transaction}

theorem balanceOf_insert (state : State) (a b : Text) (account : Account) :
    ({ state with accounts := state.accounts.insert a account } : State).balanceOf b =
      if b = a then account.balance else state.balanceOf b := by
  unfold balanceOf
  split
  · subst b
    simp [Finmap.lookup_insert]
  · rename_i other
    simp [Finmap.lookup_insert_of_ne _ other]

theorem nonceOf_insert (state : State) (a b : Text) (account : Account) :
    ({ state with accounts := state.accounts.insert a account } : State).nonceOf b =
      if b = a then account.nonce else state.nonceOf b := by
  unfold nonceOf
  split
  · subst b
    simp [Finmap.lookup_insert]
  · rename_i other
    simp [Finmap.lookup_insert_of_ne _ other]

theorem nonceOf_createAccount {state : State} (unused : ∀ a, state.nonceOf a = 0) (address : Text)
    (balance : UInt64) (a : Text) : (state.createAccount address balance).nonceOf a = 0 := by
  rw [createAccount, nonceOf_insert, unused]
  split <;> rfl

theorem containsKey_insert (state : State) (a b : Text) (account : Account) :
    ({ state with accounts := state.accounts.insert a account } : State).containsKey b =
      (decide (b = a) || state.containsKey b) := by
  unfold containsKey
  by_cases same : b = a
  · subst same
    simp [Finmap.lookup_insert]
  · simp [Finmap.lookup_insert_of_ne _ same, same]

/-- A state is what its readings say. -/
theorem eq_of_readings {first second : State} (keys : ∀ a, first.containsKey a = second.containsKey a)
    (balances : ∀ a, first.balanceOf a = second.balanceOf a) (nonces : ∀ a, first.nonceOf a = second.nonceOf a)
    (treasury : first.treasuryBalance = second.treasuryBalance)
    (burned : first.burnedAmount = second.burnedAmount) : first = second := by
  obtain ⟨accounts, _, _⟩ := first
  obtain ⟨accounts', _, _⟩ := second
  obtain rfl : accounts = accounts' := by
    apply Finmap.ext_lookup
    intro a
    have key := keys a
    have balance := balances a
    have nonce := nonces a
    simp only [containsKey, balanceOf, nonceOf] at key balance nonce
    cases found : accounts.lookup a with
    | none =>
      cases found' : accounts'.lookup a with
      | none => rfl
      | some account' => simp [found, found'] at key
    | some account =>
      cases found' : accounts'.lookup a with
      | none => simp [found, found'] at key
      | some account' =>
        simp only [found, found', Option.map_some, Option.getD_some] at balance nonce
        obtain ⟨_, _⟩ := account
        obtain ⟨_, _⟩ := account'
        rw [Option.some.injEq, Account.mk.injEq]
        exact ⟨balance, nonce⟩
  cases treasury
  cases burned
  rfl

theorem entry_balance (state : State) (a : Text) :
    (entryOrInsert state.accounts a).balance = state.balanceOf a := by
  unfold entryOrInsert balanceOf
  cases state.accounts.lookup a <;> rfl

theorem entry_nonce (state : State) (a : Text) :
    (entryOrInsert state.accounts a).nonce = state.nonceOf a := by
  unfold entryOrInsert nonceOf
  cases state.accounts.lookup a <;> rfl

/-- Writing one account changes the total by what that account changes. -/
theorem totalBalance_insert (state : State) (a : Text) (account : Account) :
    ({ state with accounts := state.accounts.insert a account } : State).totalBalance
        + (state.balanceOf a).toNat =
      state.totalBalance + account.balance.toNat := by
  have sum := Finmap.sumBy_insert (fun account : Account => account.balance.toNat) state.accounts a account
  have held : Finmap.measureAt (fun account : Account => account.balance.toNat) state.accounts a =
      (state.balanceOf a).toNat := by
    unfold Finmap.measureAt balanceOf
    cases state.accounts.lookup a <;> rfl
  rw [held] at sum
  exact sum

theorem balanceOf_le_totalBalance (state : State) (a : Text) :
    (state.balanceOf a).toNat ≤ state.totalBalance := by
  have bound := Finmap.measureAt_le_sumBy (fun account : Account => account.balance.toNat) state.accounts a
  unfold Finmap.measureAt at bound
  unfold balanceOf totalBalance
  cases found : state.accounts.lookup a with
  | none => simp
  | some account => simpa [found] using bound

/-- What `apply_transaction` checks and writes for a normal transaction. -/
theorem tryApplyTransaction_normal (normal : transaction.coinbase = false)
    (run : state.tryApplyTransaction transaction = .ok applied) :
    ∃ sender totalCost balance,
      state.accounts.lookup transaction.from = some sender ∧
      checkedAdd transaction.amount transaction.fee = some totalCost ∧
      totalCost ≤ sender.balance ∧ sender.nonce = transaction.nonce ∧
      let accounts := state.accounts.insert transaction.from
        { balance := sender.balance - totalCost, nonce := sender.nonce + 1 }
      checkedAdd (entryOrInsert accounts transaction.to).balance transaction.amount = some balance ∧
      applied = { state with
        accounts := accounts.insert transaction.to { entryOrInsert accounts transaction.to with balance } } := by
  unfold tryApplyTransaction applyTransaction at run
  rw [if_neg (by simp [normal])] at run
  cases found : state.accounts.lookup transaction.from with
  | none => simp [found] at run
  | some sender =>
    cases cost : checkedAdd transaction.amount transaction.fee with
    | none => simp [found, cost] at run
    | some totalCost =>
      simp only [found, cost] at run
      by_cases poor : sender.balance < totalCost
      · simp [poor] at run
      · by_cases stale : sender.nonce ≠ transaction.nonce
        · simp [poor, stale] at run
        · rw [if_neg poor, if_neg stale] at run
          refine ⟨sender, totalCost, ?_⟩
          cases credited : checkedAdd (entryOrInsert (state.accounts.insert transaction.from
              { balance := sender.balance - totalCost, nonce := sender.nonce + 1 }) transaction.to).balance
              transaction.amount with
          | none => simp [credited] at run
          | some balance =>
            simp only [credited, Except.ok.injEq] at run
            exact ⟨balance, rfl, rfl, UInt64.not_lt.mp poor, not_not.mp stale, credited, run.symm⟩

theorem tryApplyTransaction_coinbase (coinbase : transaction.coinbase = true)
    (run : state.tryApplyTransaction transaction = .ok applied) :
    ∃ balance,
      checkedAdd (entryOrInsert state.accounts transaction.to).balance transaction.amount = some balance ∧
      applied = { state with
        accounts := state.accounts.insert transaction.to
          { entryOrInsert state.accounts transaction.to with balance } } := by
  unfold tryApplyTransaction applyTransaction at run
  rw [if_pos coinbase] at run
  cases credited : checkedAdd (entryOrInsert state.accounts transaction.to).balance transaction.amount with
  | none => simp [credited] at run
  | some balance =>
    simp only [credited, Except.ok.injEq] at run
    exact ⟨balance, rfl, run.symm⟩

end State

/-- The ledger effect of one payment: the sender pays amount and fee and uses
its next nonce, the receiver gets the amount, and nobody else is touched. -/
structure Pays (state : State) (transaction : Transaction) (applied : State) : Prop where
  affordable : transaction.cost ≤ (state.balanceOf transaction.from).toNat
  nonce : state.nonceOf transaction.from = transaction.nonce
  balances : ∀ a, (applied.balanceOf a).toNat + (if a = transaction.from then transaction.cost else 0) =
    (state.balanceOf a).toNat + (if a = transaction.to then transaction.amount.toNat else 0)
  nonces : ∀ a, applied.nonceOf a = state.nonceOf a + (if a = transaction.from then 1 else 0)
  elsewhere : ∀ a, a ≠ transaction.from → a ≠ transaction.to →
    applied.accounts.lookup a = state.accounts.lookup a
  total : applied.totalBalance + transaction.fee.toNat = state.totalBalance
  treasury : applied.treasuryBalance = state.treasuryBalance
  burned : applied.burnedAmount = state.burnedAmount

/-- The ledger effect of money that comes from nowhere: a reward or a share
of fees for one account. -/
structure Receives (state : State) (a : Text) (amount : UInt64) (credited : State) : Prop where
  balances : ∀ b, (credited.balanceOf b).toNat = (state.balanceOf b).toNat + (if b = a then amount.toNat else 0)
  nonces : ∀ b, credited.nonceOf b = state.nonceOf b
  elsewhere : ∀ b, b ≠ a → credited.accounts.lookup b = state.accounts.lookup b
  total : credited.totalBalance = state.totalBalance + amount.toNat
  treasury : credited.treasuryBalance = state.treasuryBalance
  burned : credited.burnedAmount = state.burnedAmount

namespace State

variable {state applied : State} {transaction : Transaction}

/-- Raising one entry, created where it was missing, is a receipt. -/
theorem insert_receives {a : Text} {amount balance : UInt64}
    (sum : checkedAdd (entryOrInsert state.accounts a).balance amount = some balance) :
    Receives state a amount { state with
      accounts := state.accounts.insert a { entryOrInsert state.accounts a with balance } } := by
  rw [checkedAdd_eq_some, entry_balance] at sum
  refine ⟨fun b => ?_, fun b => ?_, fun b other => ?_, ?_, rfl, rfl⟩
  · rw [balanceOf_insert]
    split
    · subst b; exact sum.symm
    · rfl
  · rw [nonceOf_insert]
    split
    · subst b; exact entry_nonce state _
    · rfl
  · exact Finmap.lookup_insert_of_ne _ other
  · have written := totalBalance_insert state a
      { entryOrInsert state.accounts a with balance }
    simp only at written ⊢
    omega

theorem coinbase_receives (coinbase : transaction.coinbase = true)
    (run : state.tryApplyTransaction transaction = .ok applied) :
    Receives state transaction.to transaction.amount applied := by
  obtain ⟨balance, sum, rfl⟩ := tryApplyTransaction_coinbase coinbase run
  exact insert_receives sum

/-- A payment is a write to the sender and then a receipt. A sender that pays
itself gets its amount back from what the first write left. -/
theorem normal_pays (normal : transaction.coinbase = false)
    (run : state.tryApplyTransaction transaction = .ok applied) : Pays state transaction applied := by
  obtain ⟨sender, totalCost, balance, found, cost, affordable, nonce, sum, rfl⟩ :=
    tryApplyTransaction_normal normal run
  have held : state.balanceOf transaction.from = sender.balance := by simp [balanceOf, found]
  have used : state.nonceOf transaction.from = sender.nonce := by simp [nonceOf, found]
  have paid : transaction.cost = totalCost.toNat := checkedAdd_eq_some.mp cost
  have left : (sender.balance - totalCost).toNat = sender.balance.toNat - totalCost.toNat :=
    UInt64.toNat_sub_of_le _ _ affordable
  rw [UInt64.le_iff_toNat_le] at affordable
  have receipt : Receives { state with
    accounts := state.accounts.insert transaction.from
      { balance := sender.balance - totalCost, nonce := sender.nonce + 1 } } transaction.to transaction.amount _ :=
    insert_receives sum
  have written := totalBalance_insert state transaction.from
    { balance := sender.balance - totalCost, nonce := sender.nonce + 1 }
  refine ⟨?_, by rw [used, nonce], fun a => ?_, fun a => ?_, fun a notFrom notTo => ?_, ?_, rfl, rfl⟩
  · rw [held, paid]
    exact affordable
  · rw [receipt.balances a, balanceOf_insert]
    split
    · subst a
      rw [held, paid]
      simp only
      omega
    · omega
  · rw [receipt.nonces a, nonceOf_insert]
    split
    · subst a
      rw [used]
    · simp
  · rw [receipt.elsewhere a notTo]
    exact Finmap.lookup_insert_of_ne _ notFrom
  · rw [receipt.total]
    simp only [held, Transaction.cost] at written paid
    omega

end State

def sentBy (a : Text) (transactions : List Transaction) : List Transaction :=
  transactions.filter fun transaction => transaction.from == a

def receivedBy (a : Text) (transactions : List Transaction) : List Transaction :=
  transactions.filter fun transaction => transaction.to == a

def totalCost (transactions : List Transaction) : Nat :=
  (transactions.map Transaction.cost).sum

def totalAmount (transactions : List Transaction) : Nat :=
  (transactions.map fun transaction => transaction.amount.toNat).sum

def totalFee (transactions : List Transaction) : Nat :=
  (transactions.map fun transaction => transaction.fee.toNat).sum

/-- The nonces `first`, `first + 1`, ... of `count` successive payments. -/
def noncesFrom (first : UInt64) (count : Nat) : List UInt64 :=
  (List.range count).map fun i => first + UInt64.ofNat i

theorem noncesFrom_succ (first : UInt64) (count : Nat) :
    noncesFrom first (count + 1) = first :: noncesFrom (first + 1) count := by
  simp only [noncesFrom, List.range_succ_eq_map, List.map_cons, List.map_map]
  congr 1
  · exact UInt64.add_zero first
  · refine List.map_congr_left fun i _ => ?_
    simp only [Function.comp_apply, UInt64.ofNat_add, Nat.succ_eq_add_one]
    rw [UInt64.add_comm (UInt64.ofNat i), ← UInt64.add_assoc]
    rfl

theorem sequence_getElem {confirmed : List Transaction} {first : UInt64}
    (sequence : confirmed.map Transaction.nonce = noncesFrom first confirmed.length) {i : Nat}
    (bound : i < confirmed.length) : confirmed[i].nonce = first + UInt64.ofNat i := by
  have whole : (confirmed.map Transaction.nonce)[i]? = (noncesFrom first confirmed.length)[i]? :=
    congrArg (fun nonces => nonces[i]?) sequence
  simpa [bound, noncesFrom] using whole

theorem totalCost_sentBy_cons (a : Text) (transaction : Transaction) (transactions : List Transaction) :
    totalCost (sentBy a (transaction :: transactions)) =
      (if a = transaction.from then transaction.cost else 0) + totalCost (sentBy a transactions) := by
  by_cases same : a = transaction.from
  · simp [sentBy, totalCost, same]
  · simp [sentBy, totalCost, same, Ne.symm same]

theorem totalAmount_receivedBy_cons (a : Text) (transaction : Transaction) (transactions : List Transaction) :
    totalAmount (receivedBy a (transaction :: transactions)) =
      (if a = transaction.to then transaction.amount.toNat else 0)
        + totalAmount (receivedBy a transactions) := by
  by_cases same : a = transaction.to
  · simp [receivedBy, totalAmount, same]
  · simp [receivedBy, totalAmount, same, Ne.symm same]

/-- The ledger effect of a list of payments, whoever shares an address with
whom. -/
structure PaysAll (state : State) (transactions : List Transaction) (applied : State) : Prop where
  balances : ∀ a, (applied.balanceOf a).toNat + totalCost (sentBy a transactions) =
    (state.balanceOf a).toNat + totalAmount (receivedBy a transactions)
  nonces : ∀ a, applied.nonceOf a = state.nonceOf a + UInt64.ofNat (sentBy a transactions).length
  sequence : ∀ a, (sentBy a transactions).map Transaction.nonce =
    noncesFrom (state.nonceOf a) (sentBy a transactions).length
  elsewhere : ∀ a, sentBy a transactions = [] → receivedBy a transactions = [] →
    applied.accounts.lookup a = state.accounts.lookup a
  total : applied.totalBalance + totalFee transactions = state.totalBalance
  treasury : applied.treasuryBalance = state.treasuryBalance
  burned : applied.burnedAmount = state.burnedAmount

theorem PaysAll.nil (state : State) : PaysAll state [] state :=
  ⟨fun _ => rfl, fun _ => (UInt64.add_zero _).symm, fun _ => rfl, fun _ _ _ => rfl, rfl, rfl, rfl⟩

theorem PaysAll.cons {state next applied : State} {transaction : Transaction}
    {transactions : List Transaction} (first : Pays state transaction next)
    (rest : PaysAll next transactions applied) : PaysAll state (transaction :: transactions) applied := by
  refine ⟨fun a => ?_, fun a => ?_, fun a => ?_, fun a noneSent noneReceived => ?_, ?_, ?_, ?_⟩
  · have head := first.balances a
    have tail := rest.balances a
    rw [totalCost_sentBy_cons, totalAmount_receivedBy_cons]
    omega
  · rw [rest.nonces a, first.nonces a]
    by_cases sender : a = transaction.from
    · simp only [sentBy, List.filter_cons, sender, beq_self_eq_true, if_true, List.length_cons,
        UInt64.ofNat_add]
      rw [UInt64.add_assoc, UInt64.add_comm 1]
      rfl
    · simp [sentBy, sender, Ne.symm sender]
  · have tail := rest.sequence a
    rw [first.nonces a] at tail
    by_cases sender : transaction.from = a
    · rw [if_pos sender.symm] at tail
      have head := first.nonce
      rw [sender] at head
      simp only [sentBy, List.filter_cons, sender, beq_self_eq_true, if_true, List.map_cons,
        List.length_cons, noncesFrom_succ, head] at tail ⊢
      rw [tail]
    · rw [if_neg (Ne.symm sender), UInt64.add_zero] at tail
      simpa only [sentBy, List.filter_cons, beq_eq_false_iff_ne.mpr sender, Bool.false_eq_true, if_false]
        using tail
  · simp only [sentBy, receivedBy, List.filter_eq_nil_iff, List.mem_cons, forall_eq_or_imp, beq_iff_eq]
      at noneSent noneReceived
    rw [rest.elsewhere a (by simpa [sentBy] using noneSent.2) (by simpa [receivedBy] using noneReceived.2)]
    exact first.elsewhere a (Ne.symm noneSent.1) (Ne.symm noneReceived.1)
  · have head := first.total
    have tail := rest.total
    simp only [totalFee, List.map_cons, List.sum_cons] at tail ⊢
    omega
  · rw [rest.treasury, first.treasury]
  · rw [rest.burned, first.burned]

/-- A batch of normal transactions that applies is a list of payments. -/
theorem State.applyTransactionsAtomically_pays {state applied : State} {transactions : List Transaction}
    (normal : ∀ transaction ∈ transactions, transaction.coinbase = false)
    (run : state.applyTransactionsAtomically transactions = .ok applied) :
    PaysAll state transactions applied := by
  induction transactions generalizing state with
  | nil =>
    cases foldlM_nil_eq_ok.mp run
    exact PaysAll.nil _
  | cons transaction transactions ih =>
    obtain ⟨next, head, tail⟩ := foldlM_cons_eq_ok.mp run
    exact PaysAll.cons (State.normal_pays (normal transaction (by simp)) head)
      (ih (fun t member => normal t (by simp [member])) tail)

end Kybernetes
