import Kybernetes.Blockchain
import Kybernetes.Consensus
import Kybernetes.Storage

namespace Kybernetes

/-- The peer list and the message log of the node are not modelled: nothing
below reads them. The data directory is passed to each method as its chain
file. -/
structure Node where
  blockchain : Blockchain
  state : State
  mempool : Mempool
  consensus : Consensus
  genesisState : State
  genesisEconomy : Economy
  syncBuffer : List Block
  syncExpectedTotal : Option UInt64
deriving DecidableEq

/-- The variables of the transaction loop of block validation. -/
structure BlockReplay where
  state : State
  totals : FeeTotals
  coinbase : Option Transaction

namespace Node

variable [Crypto]

omit [Crypto] in
def new (blockchain : Blockchain) (state : State) (consensus : Consensus) : Node where
  blockchain := blockchain
  state := state
  mempool := Mempool.new
  consensus := consensus
  genesisState := state
  genesisEconomy := blockchain.economy
  syncBuffer := []
  syncExpectedTotal := none

omit [Crypto] in
/-- The node repeats the checks of the blockchain word for word. -/
def validateTransactionFieldSizes (transaction : Transaction) : Result Unit :=
  Blockchain.validateTransactionFieldSizes transaction

def validateTransactionBase (transaction : Transaction) (economy : Economy) : Result Unit := do
  validateTransactionFieldSizes transaction
  rejectIf transaction.coinbase "Coinbase transaction cannot be added to the mempool"
  rejectIf (transaction.from = systemAddress) "Normal transaction cannot originate from the SYSTEM address"
  rejectIf (transaction.rewardMarker ≠ 0) "Normal transaction reward marker must be zero"
  rejectIf (transaction.id ≠ transaction.calculateId) "Transaction ID is invalid"
  rejectIf (¬ transaction.isSigned) "Transaction signature is missing"
  let derivedAddress ← okOr (Wallet.addressFromPublicKey transaction.publicKey)
    "Transaction public key is invalid"
  rejectIf (derivedAddress ≠ transaction.from) "Transaction sender address does not match the public key"
  let signature ← okOr transaction.signature "Transaction signature was not found"
  rejectIf (¬ Wallet.verify transaction.publicKey transaction.message signature)
    "Transaction signature is invalid"
  rejectIf (transaction.amount = 0) "Transaction amount cannot be zero"
  rejectIf (¬ economy.validateFee transaction.amount transaction.fee)
    ("Transaction fee is invalid. Expected: " ++ toString (economy.calculateFee transaction.amount)
      ++ ", Received: " ++ toString transaction.fee)

omit [Crypto] in
/-- The error of a nonce that is not the expected one. -/
def nonceError (expected received : UInt64) : String :=
  "Transaction nonce is invalid. Expected: " ++ toString expected ++ ", Received: " ++ toString received

def validateTransaction (transaction : Transaction) (state : State) (economy : Economy) : Result Unit := do
  validateTransactionBase transaction economy
  let totalCost ← okOr (checkedAdd transaction.amount transaction.fee) "Transaction total amount overflow"
  rejectIf (state.balanceOf transaction.from < totalCost) "Insufficient balance for transaction"
  rejectIf (transaction.nonce ≠ state.nonceOf transaction.from)
    (nonceError (state.nonceOf transaction.from) transaction.nonce)

def validateTransactionForMempool (transaction : Transaction) (state : State) (economy : Economy)
    (mempool : Mempool) : Result Unit := do
  validateTransactionBase transaction economy
  let expectedNonce ← mempool.nextNonce transaction.from (state.nonceOf transaction.from)
  rejectIf (transaction.nonce ≠ expectedNonce) (nonceError expectedNonce transaction.nonce)
  let transactionCost ← okOr (checkedAdd transaction.amount transaction.fee)
    "Transaction total amount overflow"
  let pendingCost ← mempool.pendingCost transaction.from
  let totalReservedCost ← okOr (checkedAdd pendingCost transactionCost) "Mempool reserved total overflow"
  rejectIf (state.balanceOf transaction.from < totalReservedCost)
    "Insufficient available balance for transaction"

def insertTransactionIntoMempool (self : Node) (transaction : Transaction) : Result Unit × Node :=
  match validateTransactionForMempool transaction self.state self.blockchain.economy self.mempool with
  | .error fault => (.error fault, self)
  | .ok () =>
    match self.mempool.addTransaction transaction with
    | (true, mempool) => (.ok (), { self with mempool })
    | (false, mempool) =>
      (.error (.error "Transaction could not be added to mempool: limit or duplicate"), { self with mempool })

/-- One turn of the transaction loop of `validate_and_apply_block`. -/
def replayTransaction (block : Block) (economy : Economy) (position : Nat) (replay : BlockReplay)
    (transaction : Transaction) : Result BlockReplay := do
  rejectIf (transaction.id ≠ transaction.calculateId) "Transaction ID inside block is invalid"
  if transaction.coinbase then
    rejectIf replay.coinbase.isSome "Block contains more than one coinbase"
    rejectIf (position ≠ block.transactions.length - 1) "Coinbase must be the last transaction"
    rejectIf (transaction.from ≠ systemAddress) "Coinbase sender must be SYSTEM"
    rejectIf (transaction.publicKey ≠ systemPublicKey) "Coinbase public key is invalid"
    rejectIf (transaction.signature ≠ some systemRewardSignature) "Coinbase signature is invalid"
    rejectIf (transaction.to ≠ block.validator) "Coinbase reward does not go to the validator address"
    rejectIf (transaction.fee ≠ 0) "Coinbase fee must be zero"
    rejectIf (transaction.nonce ≠ 0) "Coinbase nonce must be zero"
    rejectIf (transaction.rewardMarker ≠ BitVec.ofNat 128 block.index.toNat)
      "Coinbase reward marker does not match block index"
    rejectIf (transaction.amount ≠ economy.blockReward) "Coinbase reward amount is invalid"
    return { replay with coinbase := some transaction }
  else
    rejectIf (transaction.rewardMarker ≠ 0) "Normal transaction reward marker must be zero"
    validateTransaction transaction replay.state economy
    let state ← replay.state.tryApplyTransaction transaction
    let totals ← replay.totals.charge economy transaction
    return { replay with state, totals }

def replayTransactions (block : Block) (economy : Economy) :
    Nat → BlockReplay → List Transaction → Result BlockReplay
  | _, replay, [] => .ok replay
  | position, replay, transaction :: rest => do
    let replay ← replayTransaction block economy position replay transaction
    replayTransactions block economy (position + 1) replay rest

def validateAndApplyBlock (self : Node) (now : SystemTime) (block : Block) (currentBlockchain : Blockchain)
    (currentState : State) : Result (Blockchain × State) := do
  rejectIf (maxTotalTransactionsPerBlock < block.transactions.length) "Block transaction limit exceeded"
  rejectIf (¬ isFixedHex block.previousHash hashHexLength ∨ ¬ isFixedHex block.hash hashHexLength)
    "Block hash format is invalid"
  rejectIf (¬ isFixedHex block.validator addressHexLength) "Block validator address format is invalid"
  rejectIf (¬ isFixedHex block.validatorPublicKey publicKeyHexLength)
    "Block validator public key format is invalid"
  let validatorSignature ← okOr block.validatorSignature "Block validator signature is missing"
  rejectIf (¬ isFixedHex validatorSignature signatureHexLength) "Block validator signature format is invalid"
  forM block.transactions validateTransactionFieldSizes
  rejectIf (¬ block.isHashValid) "Block hash is invalid"
  let candidateBlockchain ← currentBlockchain.addReceivedBlock now block
  let expectedValidator ← okOr (self.consensus.selectValidatorFromHash block.previousHash)
    "Validator could not be selected"
  rejectIf (block.validator ≠ expectedValidator.address) "Selected validator for this block is different"
  let derivedValidatorAddress ← okOr (Wallet.addressFromPublicKey block.validatorPublicKey)
    "Validator public key is invalid"
  rejectIf (derivedValidatorAddress ≠ block.validator) "Validator address does not match the public key"
  rejectIf (¬ self.consensus.isValidatorAllowed block.validator)
    "Validator is not registered in the consensus network"
  let validatorSignature ← okOr block.validatorSignature "Validator signature is missing"
  rejectIf (¬ Wallet.verify block.validatorPublicKey block.hash validatorSignature)
    "Validator signature is invalid"
  rejectIf (block.transactions = []) "Block transaction list is empty"
  let replay ← replayTransactions block currentBlockchain.economy 0
    { state := currentState, totals := FeeTotals.zero, coinbase := none } block.transactions
  let coinbase ← okOr replay.coinbase "Coinbase transaction was not found"
  let (rebuiltState, rebuiltEconomy) ← replay.totals.credit block.validator replay.state
    currentBlockchain.economy
  let rebuiltEconomy ← rebuiltEconomy.mint coinbase.amount
  let rebuiltState ← rebuiltState.tryApplyTransaction coinbase
  return ({ candidateBlockchain with economy := rebuiltEconomy }, rebuiltState)

omit [Crypto] in
def removeConfirmedTransactions (mempool : Mempool) (block : Block) : Mempool where
  transactions := mempool.transactions.filter fun pending =>
    ¬ block.transactions.any fun confirmed => ¬ confirmed.coinbase && confirmed.id == pending.id

/-- The returned flag is false for every error; a panic leaves the node as it was. -/
def receiveBlock (self : Node) (now : SystemTime) (answer : WriteAnswer) (file : ChainFile) (block : Block) :
    Result Bool × Node × ChainFile :=
  match self.validateAndApplyBlock now block self.blockchain self.state with
  | .error (.error _) => (.ok false, self, file)
  | .error (.panic message) => (.error (.panic message), self, file)
  | .ok (candidateBlockchain, rebuiltState) =>
    match Storage.saveBlockchainTo answer file candidateBlockchain.chain with
    | (.error _, file) => (.ok false, self, file)
    | (.ok (), file) =>
      (.ok true,
        { self with
          blockchain := candidateBlockchain
          state := rebuiltState
          mempool := removeConfirmedTransactions self.mempool block },
        file)

def applyBlockToSyncCandidate (self : Node) (now : SystemTime) (block : Block) : Result Node := do
  let (candidateBlockchain, rebuiltState) ← self.validateAndApplyBlock now block self.blockchain self.state
  return { self with
    blockchain := candidateBlockchain
    state := rebuiltState
    mempool := removeConfirmedTransactions self.mempool block }

omit [Crypto] in
def syncCandidateSnapshot (self : Node) : Node :=
  Node.new self.blockchain self.state self.consensus

omit [Crypto] in
/-- The checks of `adopt_validated_sync_candidate`: whether the candidate is
to replace the chain (`true`) or is the chain the node has (`false`). -/
def judgeSyncCandidate (self : Node) (candidateBlockchain : Blockchain) : Result Bool := do
  let localGenesis ← okOr self.blockchain.chain.head? "Local genesis was not found"
  let candidateGenesis ← okOr candidateBlockchain.chain.head? "Candidate genesis was not found"
  rejectIf (candidateGenesis.hash ≠ localGenesis.hash) "Candidate genesis does not match local genesis"
  rejectIf (candidateBlockchain.chain.length < self.blockchain.chain.length)
    "Candidate blockchain is shorter than the current chain"
  if candidateBlockchain.chain.length = self.blockchain.chain.length then
    let candidateTip ← okOr candidateBlockchain.chain.getLast? "Candidate blockchain is empty"
    let localTip ← okOr self.blockchain.chain.getLast? "Local blockchain is empty"
    rejectIf (candidateTip.hash ≠ localTip.hash) "Different equal-length candidate fork rejected"
    return false
  else
    return true

omit [Crypto] in
/-- The error of a chain that passed every check and could not be stored. -/
def writeError (what : String) : Fault → Fault
  | .error error => .error (what ++ " could not be written to persistent storage: " ++ error)
  | .panic message => .panic message

omit [Crypto] in
def adoptValidatedSyncCandidate (self : Node) (answer : WriteAnswer) (file : ChainFile)
    (candidateBlockchain : Blockchain) (candidateState : State) : Result Unit × Node × ChainFile :=
  match self.judgeSyncCandidate candidateBlockchain with
  | .error fault => (.error fault, self, file)
  | .ok false => (.ok (), self, file)
  | .ok true =>
    match Storage.saveBlockchainTo answer file candidateBlockchain.chain with
    | (.error fault, file) => (.error (writeError "Synchronized blockchain" fault), self, file)
    | (.ok (), file) =>
      (.ok (),
        { self with blockchain := candidateBlockchain, state := candidateState, mempool := Mempool.new },
        file)

/-- The loop of `synchronize_chain` over the blocks after genesis. `clock`
gives the readings that the successive blocks are checked against. -/
def rebuildChain (self : Node) : (clock : Nat → SystemTime) → Blockchain → State → List Block →
    Result (Blockchain × State)
  | _, rebuiltBlockchain, rebuiltState, [] => .ok (rebuiltBlockchain, rebuiltState)
  | clock, rebuiltBlockchain, rebuiltState, block :: rest => do
    let (nextBlockchain, nextState) ← self.validateAndApplyBlock (clock 0) block rebuiltBlockchain rebuiltState
    rebuildChain self (fun reading => clock (reading + 1)) nextBlockchain nextState rest

/-- The branch of `synchronize_chain` for a chain as long as the local one. -/
def checkEqualLengthChain (self : Node) (chain : List Block) : Result Unit := do
  let localTip ← okOr self.blockchain.chain.getLast? "Local blockchain is empty"
  let remoteTip ← okOr chain.getLast? "Incoming blockchain is empty"
  if remoteTip.hash = localTip.hash then
    let remoteBlockchain : Blockchain := { chain, economy := self.genesisEconomy }
    rejectIf (¬ remoteBlockchain.isValid) "Equal-length blockchain is invalid"
    let localGenesis ← okOr self.blockchain.chain.head? "Local genesis was not found"
    let remoteGenesis ← okOr remoteBlockchain.chain.head? "Incoming genesis was not found"
    rejectIf (remoteGenesis.hash ≠ localGenesis.hash) "Genesis blocks do not match"
  else
    rejectIf True "Different equal-length blockchain fork rejected"

/-- The validating part of `synchronize_chain`: the chain and the state to
commit, or `none` where the node already has the chain. -/
def judgeChain (self : Node) (clock : Nat → SystemTime) (chain : List Block) :
    Result (Option (Blockchain × State)) := do
  rejectIf (chain = []) "Incoming blockchain is empty"
  rejectIf (chain.length < self.blockchain.chain.length)
    "Incoming blockchain is shorter than the current chain"
  if chain.length = self.blockchain.chain.length then
    self.checkEqualLengthChain chain
    return none
  else
    let localGenesis ← okOr self.blockchain.chain.head? "Local genesis was not found"
    let remoteGenesis ← okOr chain.head? "Incoming genesis was not found"
    rejectIf (remoteGenesis.index ≠ 0) "Genesis index is invalid"
    rejectIf (remoteGenesis.previousHash ≠ str "0") "Genesis previous hash is invalid"
    rejectIf (remoteGenesis.hash ≠ remoteGenesis.calculateHash) "Genesis hash is invalid"
    rejectIf (remoteGenesis.hash ≠ localGenesis.hash) "Genesis blocks do not match"
    let rebuilt ← self.rebuildChain clock
      { Blockchain.new remoteGenesis with economy := self.genesisEconomy } self.genesisState chain.tail
    return some rebuilt

def synchronizeChain (self : Node) (clock : Nat → SystemTime) (answer : WriteAnswer) (file : ChainFile)
    (chain : List Block) : Result Unit × Node × ChainFile :=
  match self.judgeChain clock chain with
  | .error fault => (.error fault, self, file)
  | .ok none => (.ok (), self, file)
  | .ok (some (rebuiltBlockchain, rebuiltState)) =>
    match Storage.saveBlockchainTo answer file rebuiltBlockchain.chain with
    | (.error fault, file) => (.error (writeError "Synchronized blockchain" fault), self, file)
    | (.ok (), file) =>
      (.ok (),
        { self with blockchain := rebuiltBlockchain, state := rebuiltState, mempool := Mempool.new },
        file)

def restoreChainFromStorage (self : Node) (clock : Nat → SystemTime) (answer : WriteAnswer)
    (file : ChainFile) (chain : List Block) : Result Unit × Node × ChainFile :=
  self.synchronizeChain clock answer file chain

def verifyEqualChain (self : Node) (clock : Nat → SystemTime) (answer : WriteAnswer) (file : ChainFile)
    (chain : List Block) : Result Unit × Node × ChainFile :=
  if chain.length ≠ self.blockchain.chain.length then
    (.error (.error "Remote chain to validate is not the same length as the local chain"), self, file)
  else self.synchronizeChain clock answer file chain

omit [Crypto] in
/-- The checks of `accept_chain_chunk` that come before any change. `usize`
has 64 bits, so the two conversions to it cannot fail. -/
def checkChunkBounds (startIndex totalBlocks : UInt64) (blocks : List Block) : Result Unit := do
  rejectIf (maxSyncBlocksPerMessage < blocks.length) "Sync chunk block limit exceeded"
  rejectIf (totalBlocks = 0) "Sync total block count cannot be zero"
  rejectIf (totalBlocks < startIndex) "Sync start index exceeds total block count"
  let endIndex ← okOr (u64TryFrom (startIndex.toNat + blocks.length)) "Sync chunk index overflow"
  rejectIf (totalBlocks < endIndex) "Sync chunk exceeds total block count"

omit [Crypto] in
/-- A chunk that starts at zero begins a new sync; any other must continue
the one in progress. -/
def placeChunk (self : Node) (startIndex totalBlocks : UInt64) : Result Node := do
  if startIndex = 0 then
    return { self with syncBuffer := [], syncExpectedTotal := some totalBlocks }
  else
    rejectIf (self.syncExpectedTotal ≠ some totalBlocks) "Sync total block count changed"
    rejectIf (self.syncBuffer.length ≠ startIndex.toNat) "Sync chunk order is invalid"
    return self

omit [Crypto] in
/-- The index of every block of the chunk, from the given position on. -/
def checkBlockIndices : Nat → List Block → Result Unit
  | _, [] => .ok ()
  | position, block :: rest => do
    let expectedIndex ← okOr (u64TryFrom position) "Sync block index overflow"
    rejectIf (block.index ≠ expectedIndex)
      ("Sync block index order is invalid. Expected: " ++ toString expectedIndex ++ ", Received: "
        ++ toString block.index)
    checkBlockIndices (position + 1) rest

omit [Crypto] in
def checkChunkBlocks (startIndex totalBlocks : UInt64) (blocks : List Block) : Result Unit := do
  checkBlockIndices startIndex.toNat blocks
  rejectIf (blocks = [] ∧ startIndex < totalBlocks) "Sync chunk is unexpectedly empty"

def acceptChainChunk (self : Node) (clock : Nat → SystemTime) (answer : WriteAnswer) (file : ChainFile)
    (startIndex totalBlocks : UInt64) (blocks : List Block) : Result (Option UInt64) × Node × ChainFile :=
  match checkChunkBounds startIndex totalBlocks blocks with
  | .error fault => (.error fault, self, file)
  | .ok () =>
    match self.placeChunk startIndex totalBlocks with
    | .error fault => (.error fault, self, file)
    | .ok self =>
      match checkChunkBlocks startIndex totalBlocks blocks with
      | .error fault => (.error fault, self, file)
      | .ok () =>
        let self := { self with syncBuffer := self.syncBuffer ++ blocks }
        if self.syncBuffer.length < totalBlocks.toNat then
          (.ok (some (UInt64.ofNat self.syncBuffer.length)), self, file)
        else if self.syncBuffer.length ≠ totalBlocks.toNat then
          (.error (.error "Sync buffer length is invalid"), self, file)
        else
          let assembledChain := self.syncBuffer
          let self := { self with syncBuffer := [], syncExpectedTotal := none }
          match self.synchronizeChain clock answer file assembledChain with
          | (.error fault, self, file) => (.error fault, self, file)
          | (.ok (), self, file) => (.ok none, self, file)

def applyChainChunk (self : Node) (clock : Nat → SystemTime) (answer : WriteAnswer) (file : ChainFile)
    (startIndex totalBlocks : UInt64) (blocks : List Block) : Result (Option UInt64) × Node × ChainFile :=
  self.acceptChainChunk clock answer file startIndex totalBlocks blocks

omit [Crypto] in
def requestChain (self : Node) : Node :=
  { self with syncBuffer := [], syncExpectedTotal := none }

/-- Everything `produce_block` does before it writes. -/
def prepareBlock (self : Node) (now : SystemTime) (timestamp : UInt64) (validatorWallet : Wallet) :
    Result (Block × Blockchain × Mempool × State) := do
  rejectIf (¬ self.consensus.isValidatorAllowed validatorWallet.address)
    "Validator is not registered in the consensus network"
  let lastBlock ← okOr self.blockchain.chain.getLast? "Blockchain is empty"
  let selectedValidator ← okOr (self.consensus.selectValidatorFromHash lastBlock.hash)
    "Validator could not be selected"
  rejectIf (selectedValidator.address ≠ validatorWallet.address)
    "Selected validator for this block is different"
  self.blockchain.createBlockFromMempool now timestamp validatorWallet self.mempool self.state

def produceBlock (self : Node) (now : SystemTime) (answer : WriteAnswer) (file : ChainFile)
    (timestamp : UInt64) (validatorWallet : Wallet) : Result Block × Node × ChainFile :=
  match self.prepareBlock now timestamp validatorWallet with
  | .error fault => (.error fault, self, file)
  | .ok (block, candidateBlockchain, candidateMempool, candidateState) =>
    match Storage.saveBlockchainTo answer file candidateBlockchain.chain with
    | (.error fault, file) => (.error (writeError "Produced blockchain" fault), self, file)
    | (.ok (), file) =>
      (.ok block,
        { self with
          blockchain := candidateBlockchain
          state := candidateState
          mempool := candidateMempool },
        file)

def selectValidator (self : Node) (seed : Text) : Option Text :=
  (self.consensus.selectValidatorFromHash seed).map Validator.address

end Node

end Kybernetes
