import Kybernetes.Economy
import Kybernetes.Mempool

namespace Kybernetes

/-- A reading of the system clock in whole seconds after the UNIX epoch, or
`none` before it. The clock of every supported platform counts in signed 64
bits. -/
abbrev SystemTime := Option (Fin (2 ^ 63))

structure Blockchain where
  chain : List Block
  economy : Economy
deriving DecidableEq, Repr

/-- The four fee accumulators of block production and block validation. -/
structure FeeTotals where
  validator : UInt64
  liquidity : UInt64
  treasury : UInt64
  burn : UInt64
deriving DecidableEq, Repr

namespace FeeTotals

def zero : FeeTotals where
  validator := 0
  liquidity := 0
  treasury := 0
  burn := 0

/-- The four checked additions that follow `distribute_fee` in both loops. -/
def add (totals : FeeTotals) (shares : FeeShares) : Result FeeTotals := do
  let validator ← okOr (checkedAdd totals.validator shares.validator) "Validator fee overflow"
  let liquidity ← okOr (checkedAdd totals.liquidity shares.liquidity) "Liquidity Reserve fee overflow"
  let treasury ← okOr (checkedAdd totals.treasury shares.treasury) "Treasury fee overflow"
  let burn ← okOr (checkedAdd totals.burn shares.burn) "Burn fee overflow"
  return { validator, liquidity, treasury, burn }

/-- The body of the fee loop for one transaction. -/
def charge (economy : Economy) (totals : FeeTotals) (transaction : Transaction) : Result FeeTotals := do
  let shares ← economy.distributeFee transaction.fee
  totals.add shares

/-- The statements from "validator account" to "burn", which block
production and block validation share word for word. -/
def credit (totals : FeeTotals) (validator : Text) (state : State) (economy : Economy) :
    Result (State × Economy) := do
  let state := if state.containsKey validator then state else state.createAccount validator 0
  let state ← state.addBalance validator totals.validator
  let state ← state.addTreasury totals.treasury
  let economy ← economy.addLiquidityReserve totals.liquidity
  let state ← state.burn totals.burn
  return (state, economy.burn totals.burn)

end FeeTotals

namespace Blockchain

variable [Crypto]

omit [Crypto] in
def validateTransactionFieldSizes (transaction : Transaction) : Result Unit := do
  rejectIf (¬ isFixedHex transaction.id hashHexLength) "Transaction ID format is invalid"
  if transaction.coinbase then
    rejectIf (transaction.from ≠ systemAddress ∨ transaction.publicKey ≠ systemPublicKey)
      "Coinbase SYSTEM fields are invalid"
    rejectIf (¬ isFixedHex transaction.to addressHexLength) "Coinbase recipient address format is invalid"
    rejectIf (transaction.signature ≠ some systemRewardSignature) "Coinbase signature format is invalid"
  else
    rejectIf (¬ isFixedHex transaction.from addressHexLength ∨ ¬ isFixedHex transaction.to addressHexLength)
      "Transaction address format is invalid"
    rejectIf (¬ isFixedHex transaction.publicKey publicKeyHexLength)
      "Transaction public key format is invalid"
    let signature ← okOr transaction.signature "Transaction signature is missing"
    rejectIf (¬ isFixedHex signature signatureHexLength) "Transaction signature format is invalid"

/-- A block of index zero is held to the genesis format, wherever it stands. -/
def validateBlockFieldSizes (block : Block) : Result Unit := do
  rejectIf (maxTotalTransactionsPerBlock < block.transactions.length) "Block transaction limit exceeded"
  rejectIf (¬ isFixedHex block.hash hashHexLength) "Block hash format is invalid"
  if block.index = 0 then
    rejectIf (block.previousHash ≠ genesisPreviousHash ∨ block.validator ≠ genesisValidator
        ∨ ¬ isFixedHex block.validatorPublicKey hashHexLength ∨ block.validatorSignature.isSome
        ∨ block.transactions ≠ [])
      "Genesis block format is invalid"
  else
    rejectIf (¬ block.transactions.any fun transaction => ¬ transaction.coinbase)
      "Non-genesis block must contain at least one normal transaction"
    rejectIf (¬ isFixedHex block.previousHash hashHexLength) "Block previous hash format is invalid"
    rejectIf (¬ isFixedHex block.validator addressHexLength) "Block validator address format is invalid"
    rejectIf (¬ isFixedHex block.validatorPublicKey publicKeyHexLength)
      "Block validator public key format is invalid"
    let validatorSignature ← okOr block.validatorSignature "Block validator signature is missing"
    rejectIf (¬ isFixedHex validatorSignature signatureHexLength)
      "Block validator signature format is invalid"
    forM block.transactions validateTransactionFieldSizes

/-- The loop that inserts the ids of a block into the set of seen ids. -/
def insertIds : List Text → List Transaction → Result Unit
  | _, [] => .ok ()
  | seenIds, transaction :: rest => do
    rejectIf (transaction.id ∈ seenIds)
      ("Transaction ID was already used. TX: " ++ Text.display transaction.id)
    insertIds (transaction.id :: seenIds) rest

/-- All transactions of the chain in chain order. -/
def transactions (self : Blockchain) : List Transaction :=
  self.chain.flatMap Block.transactions

def validateTransactionIdUniqueness (self : Blockchain) (block : Block) : Result Unit :=
  insertIds (self.transactions.map Transaction.id) block.transactions

def currentUnixTimestamp (now : SystemTime) : Result UInt64 :=
  okOr (now.map fun seconds => UInt64.ofNat seconds.val) "System time is before the UNIX epoch"

def validateFutureTimestamp (now : SystemTime) (timestamp : UInt64) : Result Unit := do
  let now ← currentUnixTimestamp now
  let maximumAllowed ← okOr (checkedAdd now maxFutureDriftSeconds) "Timestamp upper bound overflow"
  rejectIf (maximumAllowed < timestamp) "Block timestamp exceeds the allowed future-time limit"

def new (genesis : Block) : Blockchain where
  chain := [genesis]
  economy := Economy.new

/-- On success the method replaces its three mutable arguments; on failure
it has touched only copies. -/
def createBlockFromMempool (self : Blockchain) (now : SystemTime) (timestamp : UInt64)
    (validatorWallet : Wallet) (mempool : Mempool) (state : State) :
    Result (Block × Blockchain × Mempool × State) := do
  rejectIf mempool.isEmpty "Mempool is empty"
  let lastBlock ← okOr self.chain.getLast? "Blockchain is empty"
  rejectIf (timestamp ≤ lastBlock.timestamp)
    "New block timestamp must be greater than the previous block timestamp"
  validateFutureTimestamp now timestamp
  let transactions := (mempool.takeValidTransactions state).1
  rejectIf (transactions = []) "No valid transactions"
  forM transactions fun transaction =>
    rejectIf (¬ self.economy.validateFee transaction.amount transaction.fee)
      ("Transaction fee is invalid. TX: " ++ Text.display transaction.id)
  let candidateState ← state.applyTransactionsAtomically transactions
  let totals ← transactions.foldlM (FeeTotals.charge self.economy) FeeTotals.zero
  let (candidateState, candidateEconomy) ← totals.credit validatorWallet.address candidateState self.economy
  let index := UInt64.ofNat self.chain.length
  let previousHash := lastBlock.hash
  let (reward, candidateEconomy) ← candidateEconomy.rewardValidator
  let coinbase := Transaction.newCoinbase validatorWallet.address reward index
  let candidateState ← candidateState.tryApplyTransaction coinbase
  let transactions := transactions ++ [coinbase]
  let block := Block.new index timestamp previousHash validatorWallet.address
    validatorWallet.publicKeyHex transactions
  let block := block.withSignature (validatorWallet.sign block.hash)
  validateBlockFieldSizes block
  self.validateTransactionIdUniqueness block
  let confirmedTransactionIds :=
    (transactions.filter fun transaction => ¬ transaction.coinbase).map Transaction.id
  let mempool : Mempool :=
    { transactions := mempool.transactions.filter fun pending => ¬ confirmedTransactionIds.contains pending.id }
  return (block, { chain := self.chain ++ [block], economy := candidateEconomy }, mempool, candidateState)

def addReceivedBlock (self : Blockchain) (now : SystemTime) (block : Block) : Result Blockchain := do
  validateBlockFieldSizes block
  self.validateTransactionIdUniqueness block
  let lastBlock ← okOr self.chain.getLast? "Blockchain is empty"
  rejectIf (block.previousHash ≠ lastBlock.hash) "Previous hash does not match"
  rejectIf (block.timestamp ≤ lastBlock.timestamp)
    "Block timestamp must be greater than the previous block timestamp"
  validateFutureTimestamp now block.timestamp
  rejectIf (block.hash ≠ block.calculateHash) "Block hash is invalid"
  rejectIf (block.index ≠ UInt64.ofNat self.chain.length) "Block index is invalid"
  return { self with chain := self.chain ++ [block] }

/-- The loop of `is_valid` over the transactions of one block: the ids seen
afterwards, or `none` where it returns false. -/
def checkTransactions (block : Block) : List Text → List Transaction → Option (List Text)
  | seenTransactionIds, [] => some seenTransactionIds
  | seenTransactionIds, transaction :: rest =>
    if transaction.id ∈ seenTransactionIds then none
    else if transaction.id ≠ transaction.calculateId then none
    else if transaction.coinbase ∧ transaction.rewardMarker ≠ BitVec.ofNat 128 block.index.toNat then none
    else checkTransactions block (transaction.id :: seenTransactionIds) rest

/-- The checks of `is_valid` that tie a block to the one before it. -/
def checkLinkage (previous block : Block) : Bool :=
  if block.timestamp ≤ previous.timestamp then false
  else if block.previousHash ≠ previous.hash then false
  else if ¬ block.isSigned then false
  else
    match Wallet.addressFromPublicKey block.validatorPublicKey with
    | none => false
    | some derivedValidatorAddress =>
      if derivedValidatorAddress ≠ block.validator then false
      else
        match block.validatorSignature with
        | none => false
        | some validatorSignature =>
          Wallet.verify block.validatorPublicKey block.hash validatorSignature

/-- The loop of `is_valid`: `previous` is the block in front of the position. -/
def isValidFrom : Nat → Option Block → List Text → List Block → Bool
  | _, _, _, [] => true
  | position, previous, seenTransactionIds, block :: rest =>
    if validateBlockFieldSizes block ≠ .ok () then false
    else if block.index ≠ UInt64.ofNat position then false
    else
      match checkTransactions block seenTransactionIds block.transactions with
      | none => false
      | some seenTransactionIds =>
        if block.hash ≠ block.calculateHash then false
        else
          match previous with
          | none =>
            if block.previousHash ≠ str "0" then false
            else isValidFrom (position + 1) (some block) seenTransactionIds rest
          | some previous =>
            if ¬ checkLinkage previous block then false
            else isValidFrom (position + 1) (some block) seenTransactionIds rest

def isValid (self : Blockchain) : Bool :=
  isValidFrom 0 none [] self.chain

end Blockchain

end Kybernetes
