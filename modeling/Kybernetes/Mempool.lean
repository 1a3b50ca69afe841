import Kybernetes.State
import Mathlib.Data.List.Sort

namespace Kybernetes

structure Mempool where
  transactions : List Transaction
deriving DecidableEq, Repr

/-- What one pass of `take_valid_transactions` changes. -/
structure SelectionPass where
  temporaryState : State
  validTransactions : List Transaction
  nextPending : List Transaction
  progress : Bool

namespace Mempool

def new : Mempool where
  transactions := []

def hasValidProtocolFormat (transaction : Transaction) : Bool :=
  if ¬ isFixedHex transaction.id hashHexLength then false
  else if ¬ isFixedHex transaction.from addressHexLength then false
  else if ¬ isFixedHex transaction.to addressHexLength then false
  else if ¬ isFixedHex transaction.publicKey publicKeyHexLength then false
  else
    match transaction.signature with
    | none => false
    | some signature => isFixedHex signature signatureHexLength

/-- The checks of `add_transaction` on the transaction alone. -/
def acceptsAlone [Crypto] (transaction : Transaction) : Bool :=
  if transaction.coinbase then false
  else if transaction.from = systemAddress then false
  else if transaction.amount = 0 then false
  else if transaction.rewardMarker ≠ 0 then false
  else if ¬ hasValidProtocolFormat transaction then false
  else if transaction.id ≠ transaction.calculateId then false
  else if ¬ transaction.isSigned then false
  else
    match transaction.signature with
    | none => false
    | some signature =>
      match Wallet.addressFromPublicKey transaction.publicKey with
      | none => false
      | some derived =>
        if derived ≠ transaction.from then false
        else Wallet.verify transaction.publicKey transaction.message signature

def addTransaction [Crypto] (self : Mempool) (transaction : Transaction) : Bool × Mempool :=
  if maxMempoolTransactions ≤ self.transactions.length then (false, self)
  else if ¬ acceptsAlone transaction then (false, self)
  else if self.transactions.any fun existing => existing.id == transaction.id then (false, self)
  else if self.transactions.any fun existing =>
      existing.from == transaction.from && existing.nonce == transaction.nonce then (false, self)
  else (true, { transactions := self.transactions ++ [transaction] })

/-- `sort_by_key` is stable, and so is insertion in front of the first
element that is not smaller. -/
def pendingForSender (self : Mempool) (address : Text) : List Transaction :=
  (self.transactions.filter fun transaction => transaction.from == address).insertionSort
    fun left right => left.nonce ≤ right.nonce

/-- The scan of `next_nonce` over the sorted transactions of one sender. -/
def nextNonceFrom : UInt64 → List Transaction → Result UInt64
  | expected, [] => .ok expected
  | expected, transaction :: rest =>
    if transaction.nonce < expected then nextNonceFrom expected rest
    else if expected < transaction.nonce then .ok expected
    else
      match checkedAdd expected 1 with
      | none => .error (.error "Nonce overflow")
      | some next => nextNonceFrom next rest

def nextNonce (self : Mempool) (address : Text) (stateNonce : UInt64) : Result UInt64 :=
  nextNonceFrom stateNonce (self.pendingForSender address)

def pendingCost (self : Mempool) (address : Text) : Result UInt64 :=
  (self.transactions.filter fun transaction => transaction.from == address).foldlM
    (fun total transaction => do
      let cost ← okOr (checkedAdd transaction.amount transaction.fee) "Transaction cost overflow"
      okOr (checkedAdd total cost) "Mempool total cost overflow") 0

/-- One turn of the inner loop. The temporary state keeps whatever a failed
application left in it. -/
def selectStep (pass : SelectionPass) (transaction : Transaction) : SelectionPass :=
  if maxNormalTransactionsPerBlock ≤ pass.validTransactions.length then
    { pass with nextPending := pass.nextPending ++ [transaction] }
  else
    match pass.temporaryState.applyTransaction transaction with
    | (.ok (), applied) =>
      { pass with
        temporaryState := applied
        validTransactions := pass.validTransactions ++ [transaction]
        progress := true }
    | (.error _, left) =>
      { pass with temporaryState := left, nextPending := pass.nextPending ++ [transaction] }

/-- The outer loop. A pass that makes progress shortens the pending list, so
a fuel of one more than its length is never used up. -/
def selectLoop : Nat → State → List Transaction → List Transaction → List Transaction × List Transaction
  | 0, _, validTransactions, pendingTransactions => (validTransactions, pendingTransactions)
  | fuel + 1, temporaryState, validTransactions, pendingTransactions =>
    if pendingTransactions = [] then (validTransactions, [])
    else
      let pass := pendingTransactions.foldl selectStep
        { temporaryState, validTransactions, nextPending := [], progress := false }
      if maxNormalTransactionsPerBlock ≤ pass.validTransactions.length then
        (pass.validTransactions, pass.nextPending)
      else if ¬ pass.progress then (pass.validTransactions, pass.nextPending)
      else selectLoop fuel pass.temporaryState pass.validTransactions pass.nextPending

def takeValidTransactions (self : Mempool) (state : State) : List Transaction × Mempool :=
  let (validTransactions, left) := selectLoop (self.transactions.length + 1) state [] self.transactions
  (validTransactions, { transactions := left })

def isEmpty (self : Mempool) : Bool :=
  self.transactions.isEmpty

end Mempool

end Kybernetes
