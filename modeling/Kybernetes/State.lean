import Kybernetes.Base.Result
import Kybernetes.Base.Checked
import Kybernetes.Base.FinmapSum
import Kybernetes.Core

namespace Kybernetes

structure Account where
  balance : UInt64
  nonce : UInt64
deriving DecidableEq, Repr

/-- `HashMap<String, Account>`: the code never depends on its order. -/
abbrev Accounts := Finmap fun _ : Text => Account

structure State where
  accounts : Accounts
  treasuryBalance : UInt64
  burnedAmount : UInt64
deriving DecidableEq

namespace State

def new : State where
  accounts := ∅
  treasuryBalance := 0
  burnedAmount := 0

def createAccount (self : State) (address : Text) (balance : UInt64) : State :=
  { self with accounts := self.accounts.insert address { balance, nonce := 0 } }

def balanceOf (self : State) (address : Text) : UInt64 :=
  ((self.accounts.lookup address).map Account.balance).getD 0

def nonceOf (self : State) (address : Text) : UInt64 :=
  ((self.accounts.lookup address).map Account.nonce).getD 0

def containsKey (self : State) (address : Text) : Bool :=
  (self.accounts.lookup address).isSome

def addBalance (self : State) (address : Text) (amount : UInt64) : Result State := do
  let account ← okOr (self.accounts.lookup address) "Account not found"
  let balance ← okOr (checkedAdd account.balance amount) "Balance overflow"
  return { self with accounts := self.accounts.insert address { account with balance } }

def addTreasury (self : State) (amount : UInt64) : Result State := do
  let treasuryBalance ← okOr (checkedAdd self.treasuryBalance amount) "Treasury overflow"
  return { self with treasuryBalance }

def burn (self : State) (amount : UInt64) : Result State := do
  let burnedAmount ← okOr (checkedAdd self.burnedAmount amount) "Burn overflow"
  return { self with burnedAmount }

/-- `accounts.entry(address).or_insert(Account { balance: 0, nonce: 0 })`. -/
def entryOrInsert (accounts : Accounts) (address : Text) : Account :=
  (accounts.lookup address).getD { balance := 0, nonce := 0 }

/-- The method changes the state in place, so the state it leaves behind is
returned with the error too. The nonce is incremented without a check. -/
def applyTransaction (self : State) (transaction : Transaction) : Result Unit × State :=
  if transaction.coinbase then
    let receiver := entryOrInsert self.accounts transaction.to
    match checkedAdd receiver.balance transaction.amount with
    | none =>
      (.error (.error "Coinbase overflow"),
        { self with accounts := self.accounts.insert transaction.to receiver })
    | some balance =>
      (.ok (), { self with accounts := self.accounts.insert transaction.to { receiver with balance } })
  else
    match self.accounts.lookup transaction.from with
    | none => (.error (.error "Sender account not found"), self)
    | some sender =>
      match checkedAdd transaction.amount transaction.fee with
      | none => (.error (.error "Transaction overflow"), self)
      | some totalCost =>
        if sender.balance < totalCost then (.error (.error "Insufficient balance"), self)
        else if sender.nonce ≠ transaction.nonce then (.error (.error "Invalid nonce"), self)
        else
          let senderAccount : Account :=
            { balance := sender.balance - totalCost, nonce := sender.nonce + 1 }
          let accounts := self.accounts.insert transaction.from senderAccount
          let receiverAccount := entryOrInsert accounts transaction.to
          match checkedAdd receiverAccount.balance transaction.amount with
          | none =>
            (.error (.error "Receiver balance overflow"),
              { self with accounts := accounts.insert transaction.to receiverAccount })
          | some balance =>
            (.ok (),
              { self with accounts := accounts.insert transaction.to { receiverAccount with balance } })

/-- `apply_transaction` on a state that is dropped when it fails. -/
def tryApplyTransaction (self : State) (transaction : Transaction) : Result State :=
  match self.applyTransaction transaction with
  | (.ok (), applied) => .ok applied
  | (.error fault, _) => .error fault

/-- The method works on a clone, so a failure leaves the state as it was. -/
def applyTransactionsAtomically (self : State) (transactions : List Transaction) : Result State :=
  transactions.foldlM tryApplyTransaction self

end State

end Kybernetes
