import Kybernetes.Crypto

namespace Kybernetes

abbrev UInt128 := BitVec 128

structure Transaction where
  id : Text
  «from» : Text
  publicKey : Text
  «to» : Text
  amount : UInt64
  fee : UInt64
  nonce : UInt64
  signature : Option Text
  coinbase : Bool
  rewardMarker : UInt128
deriving DecidableEq, Repr

structure Block where
  index : UInt64
  timestamp : UInt64
  previousHash : Text
  hash : Text
  validator : Text
  validatorPublicKey : Text
  validatorSignature : Option Text
  transactions : List Transaction
deriving DecidableEq, Repr

def u64ToBeBytes (n : UInt64) : Bytes :=
  bigEndian 8 n.toNat

def u128ToBeBytes (n : UInt128) : Bytes :=
  bigEndian 16 n.toNat

/-- `append_bytes` and `append_string` of blocks and of transactions: eight
bytes of length, then the value. The length is cast with `as u64`. -/
def appendBytes (buffer value : Bytes) : Bytes :=
  buffer ++ u64ToBeBytes (UInt64.ofNat value.length) ++ value

variable [Crypto]

namespace Transaction

def message (self : Transaction) : Bytes :=
  let message := str "AION_TX_V1"
  let message := appendBytes message self.from
  let message := appendBytes message self.publicKey
  let message := appendBytes message self.to
  let message := message ++ u64ToBeBytes self.amount
  let message := message ++ u64ToBeBytes self.fee
  let message := message ++ u64ToBeBytes self.nonce
  let message := message ++ [if self.coinbase then 1 else 0]
  message ++ u128ToBeBytes self.rewardMarker

def calculateId (self : Transaction) : Text :=
  sha256Hex self.message

def new («from» publicKey «to» : Text) (amount fee nonce : UInt64) : Transaction :=
  let tx : Transaction :=
    { id := [], «from», publicKey, «to», amount, fee, nonce, signature := none, coinbase := false,
      rewardMarker := 0 }
  { tx with id := tx.calculateId }

def newCoinbase (validator : Text) (reward blockIndex : UInt64) : Transaction :=
  let tx : Transaction :=
    { id := [], «from» := systemAddress, publicKey := systemPublicKey, «to» := validator, amount := reward,
      fee := 0, nonce := 0, signature := some systemRewardSignature, coinbase := true,
      rewardMarker := BitVec.ofNat 128 blockIndex.toNat }
  { tx with id := tx.calculateId }

def withSignature (self : Transaction) (signature : Text) : Transaction :=
  { self with signature := some signature }

def isSigned (self : Transaction) : Bool :=
  self.signature.isSome

end Transaction

namespace Block

/-- The bytes of one transaction inside the hashed data of its block. -/
def transactionBytes (transaction : Transaction) : Bytes :=
  let data := appendBytes [] transaction.id
  let data := appendBytes data transaction.message
  match transaction.signature with
  | some signature => appendBytes (data ++ [1]) signature
  | none => data ++ [0]

/-- The data `calculate_hash` hashes. The signature of the validator is not
part of it. -/
def hashData (self : Block) : Bytes :=
  let data := str "AION_BLOCK_V1"
  let data := data ++ u64ToBeBytes self.index
  let data := data ++ u64ToBeBytes self.timestamp
  let data := appendBytes data self.previousHash
  let data := appendBytes data self.validator
  let data := appendBytes data self.validatorPublicKey
  let data := data ++ u64ToBeBytes (UInt64.ofNat self.transactions.length)
  self.transactions.foldl (fun data transaction => data ++ transactionBytes transaction) data

def calculateHash (self : Block) : Text :=
  sha256Hex self.hashData

def new (index timestamp : UInt64) (previousHash validator validatorPublicKey : Text)
    (transactions : List Transaction) : Block :=
  let block : Block :=
    { index, timestamp, previousHash, hash := [], validator, validatorPublicKey,
      validatorSignature := none, transactions }
  { block with hash := block.calculateHash }

def withSignature (self : Block) (signature : Text) : Block :=
  { self with validatorSignature := some signature }

def isSigned (self : Block) : Bool :=
  self.validatorSignature.isSome

def isHashValid (self : Block) : Bool :=
  self.hash == self.calculateHash

end Block

end Kybernetes
