import Kybernetes.Base.Strict
import Kybernetes.Solvency

namespace Kybernetes.State

/-- `apply_transaction` where overflow checks are on: the subtraction from the balance
and the increment of the nonce are the two operations the method does not check. -/
def strictApplyTransaction (self : State) (transaction : Transaction) : Result Unit × State :=
  if transaction.coinbase then self.applyTransaction transaction
  else
    match self.accounts.lookup transaction.from with
    | none => (.error (.error "Sender account not found"), self)
    | some sender =>
      match checkedAdd transaction.amount transaction.fee with
      | none => (.error (.error "Transaction overflow"), self)
      | some totalCost =>
        if sender.balance < totalCost then (.error (.error "Insufficient balance"), self)
        else if sender.nonce ≠ transaction.nonce then (.error (.error "Invalid nonce"), self)
        else
          match strictSub sender.balance totalCost, strictAdd sender.nonce 1 with
          | .error fault, _ => (.error fault, self)
          | .ok balance, .error fault =>
            (.error fault, { self with accounts := self.accounts.insert transaction.from { sender with balance } })
          | .ok balance, .ok nonce =>
            let accounts := self.accounts.insert transaction.from { balance, nonce }
            let receiverAccount := entryOrInsert accounts transaction.to
            match checkedAdd receiverAccount.balance transaction.amount with
            | none =>
              (.error (.error "Receiver balance overflow"),
                { self with accounts := accounts.insert transaction.to receiverAccount })
            | some balance =>
              (.ok (), { self with accounts := accounts.insert transaction.to { receiverAccount with balance } })

def strictTryApplyTransaction (self : State) (transaction : Transaction) : Result State :=
  match self.strictApplyTransaction transaction with
  | (.ok (), applied) => .ok applied
  | (.error fault, _) => .error fault

variable {state : State} {transaction : Transaction}

/-- The balance has been compared with the cost when it is reduced, so only a used up
nonce can stop the method. -/
theorem strictApplyTransaction_eq
    (room : transaction.coinbase = false → (state.nonceOf transaction.from).toNat + 1 < 2 ^ 64) :
    state.strictApplyTransaction transaction = state.applyTransaction transaction := by
  cases coinbase : transaction.coinbase with
  | true => rw [strictApplyTransaction, if_pos coinbase]
  | false =>
    rw [strictApplyTransaction, if_neg (by simp [coinbase]), applyTransaction, if_neg (by simp [coinbase])]
    cases found : state.accounts.lookup transaction.from with
    | none => rfl
    | some sender =>
      cases cost : checkedAdd transaction.amount transaction.fee with
      | none => rfl
      | some totalCost =>
        dsimp only
        by_cases poor : sender.balance < totalCost
        · rw [if_pos poor, if_pos poor]
        · by_cases stale : sender.nonce ≠ transaction.nonce
          · rw [if_neg poor, if_pos stale, if_neg poor, if_pos stale]
          · have used : state.nonceOf transaction.from = sender.nonce := by simp [nonceOf, found]
            have below := room coinbase
            rw [used] at below
            have paid := strictSub_of_le (UInt64.not_lt.mp poor)
            have counted : strictAdd sender.nonce 1 = .ok (sender.nonce + 1) := strictAdd_of_room below
            rw [if_neg poor, if_neg stale, if_neg poor, if_neg stale, paid]
            generalize strictAdd sender.nonce 1 = incremented at counted ⊢
            cases counted
            rfl

theorem strictTryApplyTransaction_eq
    (room : transaction.coinbase = false → (state.nonceOf transaction.from).toNat + 1 < 2 ^ 64) :
    state.strictTryApplyTransaction transaction = state.tryApplyTransaction transaction := by
  rw [strictTryApplyTransaction, strictApplyTransaction_eq room]
  rfl

end Kybernetes.State
