import Kybernetes.Base.Json
import Kybernetes.Handshake
import Kybernetes.Runtime

namespace Kybernetes

def oneShotClientListenAddress : Text := str "127.0.0.1:0"
def maxTransactionAckReasonLength : Nat := 512
def maxPeerAddressLength : Nat := 256
def maxHandshakeAgeSeconds : Nat := 120
def maxNetworkMessageBytes : Nat := 8 * 1024 * 1024

inductive NetworkMessage
  | handshake (nodeId publicKey listenAddress networkId : Text) (protocolVersion : UInt32) (timestamp : UInt64)
      (challenge signature : Text)
  | handshakeAck (nodeId publicKey networkId : Text) (protocolVersion : UInt32) (timestamp : UInt64)
      (challenge : Text) (accepted : Bool) (signature : Text)
  | transaction (transaction : Transaction)
  | transactionAck (transactionId : Text) (accepted : Bool) (reason : Option Text)
  | block (block : Block)
  | syncRequest
  | chainChunkRequest (startIndex : UInt64)
  | chainChunkResponse (startIndex totalBlocks : UInt64) (blocks : List Block)
  | accountStateRequest (address : Text)
  | accountStateResponse (address : Text) (balance nonce tipIndex : UInt64) (tipHash : Text)
deriving DecidableEq, Repr

/-! What `serde_json` writes for the derived `Serialize` implementations. -/

def Transaction.json (self : Transaction) : Bytes :=
  Json.object
    [("id", Json.string self.id),
      ("from", Json.string self.from),
      ("public_key", Json.string self.publicKey),
      ("to", Json.string self.to),
      ("amount", Json.number self.amount.toNat),
      ("fee", Json.number self.fee.toNat),
      ("nonce", Json.number self.nonce.toNat),
      ("signature", Json.optional self.signature),
      ("coinbase", Json.boolean self.coinbase),
      ("reward_marker", Json.number self.rewardMarker.toNat)]

def Block.json (self : Block) : Bytes :=
  Json.object
    [("index", Json.number self.index.toNat),
      ("timestamp", Json.number self.timestamp.toNat),
      ("previous_hash", Json.string self.previousHash),
      ("hash", Json.string self.hash),
      ("validator", Json.string self.validator),
      ("validator_public_key", Json.string self.validatorPublicKey),
      ("validator_signature", Json.optional self.validatorSignature),
      ("transactions", Json.array (self.transactions.map Transaction.json))]

def NetworkMessage.json : NetworkMessage → Bytes
  | .handshake nodeId publicKey listenAddress networkId protocolVersion timestamp challenge signature =>
    Json.variant "Handshake" (Json.object
      [("node_id", Json.string nodeId),
        ("public_key", Json.string publicKey),
        ("listen_address", Json.string listenAddress),
        ("network_id", Json.string networkId),
        ("protocol_version", Json.number protocolVersion.toNat),
        ("timestamp", Json.number timestamp.toNat),
        ("challenge", Json.string challenge),
        ("signature", Json.string signature)])
  | .handshakeAck nodeId publicKey networkId protocolVersion timestamp challenge accepted signature =>
    Json.variant "HandshakeAck" (Json.object
      [("node_id", Json.string nodeId),
        ("public_key", Json.string publicKey),
        ("network_id", Json.string networkId),
        ("protocol_version", Json.number protocolVersion.toNat),
        ("timestamp", Json.number timestamp.toNat),
        ("challenge", Json.string challenge),
        ("accepted", Json.boolean accepted),
        ("signature", Json.string signature)])
  | .transaction tx => Json.variant "Transaction" tx.json
  | .transactionAck transactionId accepted reason =>
    Json.variant "TransactionAck" (Json.object
      [("transaction_id", Json.string transactionId),
        ("accepted", Json.boolean accepted),
        ("reason", Json.optional reason)])
  | .block received => Json.variant "Block" received.json
  | .syncRequest => Json.string (Json.ascii "SyncRequest")
  | .chainChunkRequest startIndex =>
    Json.variant "ChainChunkRequest" (Json.object [("start_index", Json.number startIndex.toNat)])
  | .chainChunkResponse startIndex totalBlocks blocks =>
    Json.variant "ChainChunkResponse" (Json.object
      [("start_index", Json.number startIndex.toNat),
        ("total_blocks", Json.number totalBlocks.toNat),
        ("blocks", Json.array (blocks.map Block.json))])
  | .accountStateRequest address =>
    Json.variant "AccountStateRequest" (Json.object [("address", Json.string address)])
  | .accountStateResponse address balance nonce tipIndex tipHash =>
    Json.variant "AccountStateResponse" (Json.object
      [("address", Json.string address),
        ("balance", Json.number balance.toNat),
        ("nonce", Json.number nonce.toNat),
        ("tip_index", Json.number tipIndex.toNat),
        ("tip_hash", Json.string tipHash)])

/-- The bytes that `send_message` writes to the stream. -/
def TcpTransport.sendMessage (message : NetworkMessage) : Result Bytes := do
  let payload := message.json
  rejectIf (payload = []) "Empty network message cannot be sent"
  rejectIf (maxNetworkMessageBytes < payload.length) "Network message byte limit exceeded"
  rejectIf (2 ^ 32 ≤ payload.length) "Network message length exceeds the u32 range"
  return bigEndian 4 payload.length ++ payload

namespace Network

variable [Crypto]

/-- `now` is the reading of the clock. -/
def handshakeTimestampValid (now : SystemTime) (timestamp : UInt64) : Bool :=
  let now := NodeRuntime.currentTimestamp now
  max now.toNat timestamp.toNat - min now.toNat timestamp.toNat ≤ maxHandshakeAgeSeconds

/-- The challenge is drawn from the operating system's random numbers. -/
def createHandshake (now : SystemTime) (randomBytes : FixedBytes 32) (wallet : Wallet) (listenAddress : Text) :
    NetworkMessage :=
  let timestamp := NodeRuntime.currentTimestamp now
  let challenge := hexEncode randomBytes.val
  .handshake wallet.nodeId wallet.publicKeyHex listenAddress networkId networkProtocolVersion timestamp challenge
    (wallet.signNodeHandshake listenAddress networkId networkProtocolVersion timestamp challenge)

def createHandshakeAck (now : SystemTime) (wallet : Wallet) (accepted : Bool) (challenge : Text) :
    NetworkMessage :=
  let timestamp := NodeRuntime.currentTimestamp now
  .handshakeAck wallet.nodeId wallet.publicKeyHex networkId networkProtocolVersion timestamp challenge accepted
    (wallet.signNodeHandshakeAck networkId networkProtocolVersion timestamp challenge accepted)

omit [Crypto] in
def handshakeChallenge : NetworkMessage → Option Text
  | .handshake _ _ _ _ _ _ challenge _ => some challenge
  | _ => none

omit [Crypto] in
def handshakeAckFieldsValid (nodeId networkId : Text) (protocolVersion : UInt32) : Bool :=
  isFixedHex nodeId addressHexLength && networkId == Kybernetes.networkId
    && protocolVersion == networkProtocolVersion

def handshakeFieldsValid (now : SystemTime) (nodeId publicKey listenAddress networkId : Text)
    (protocolVersion : UInt32) (timestamp : UInt64) (challenge signature : Text) : Bool :=
  isFixedHex nodeId addressHexLength && isFixedHex publicKey addressHexLength && !listenAddress.isEmpty
    && listenAddress.length ≤ maxPeerAddressLength && networkId == Kybernetes.networkId
    && protocolVersion == networkProtocolVersion && handshakeTimestampValid now timestamp
    && isFixedHex challenge 64
    && Wallet.verifyNodeHandshake nodeId publicKey listenAddress networkId protocolVersion timestamp challenge
      signature

omit [Crypto] in
def transactionAckFieldsValid (transactionId : Text) (accepted : Bool) (reason : Option Text) : Bool :=
  if ¬ isFixedHex transactionId hashHexLength then false
  else
    match accepted, reason with
    | true, none => true
    | false, some reason => !reason.isEmpty && reason.length ≤ maxTransactionAckReasonLength
    | _, _ => false

def messageWithinLimits (now : SystemTime) (message : NetworkMessage) : Bool :=
  if maxNetworkMessageBytes < message.json.length then false
  else
    match message with
    | .handshake nodeId publicKey listenAddress networkId protocolVersion timestamp challenge signature =>
      handshakeFieldsValid now nodeId publicKey listenAddress networkId protocolVersion timestamp challenge
        signature
    | .handshakeAck nodeId _ networkId protocolVersion _ challenge _ _ =>
      handshakeAckFieldsValid nodeId networkId protocolVersion && isFixedHex challenge 64
    | .transactionAck transactionId accepted reason => transactionAckFieldsValid transactionId accepted reason
    | .accountStateRequest address => isFixedHex address addressHexLength
    | .accountStateResponse address _ _ _ tipHash =>
      isFixedHex address addressHexLength && isFixedHex tipHash hashHexLength
    | .chainChunkResponse _ _ blocks => blocks.length ≤ maxSyncBlocksPerMessage
    | _ => true

def validateHandshake (now : SystemTime) (message : NetworkMessage) : Bool :=
  match message with
  | .handshake .. => messageWithinLimits now message
  | _ => false

def validateTransactionAck (now : SystemTime) (message : NetworkMessage) (expectedTransactionId : Text) : Bool :=
  match message with
  | .transactionAck transactionId _ _ =>
    transactionId == expectedTransactionId && messageWithinLimits now message
  | _ => false

def validateAccountStateResponse (now : SystemTime) (message : NetworkMessage) (expectedAddress : Text) : Bool :=
  match message with
  | .accountStateResponse address _ _ _ _ => address == expectedAddress && messageWithinLimits now message
  | _ => false

end Network

/-- What `authenticate_incoming` answers to the first message of a connection,
and whether it accepts the peer. The answer signs the challenge that came,
also one that is not a hex text. -/
def TcpTransport.authenticateIncoming [Crypto] (now now' : SystemTime) (wallet : Wallet)
    (handshake : NetworkMessage) : NetworkMessage × Bool :=
  let challenge := (Network.handshakeChallenge handshake).getD []
  let accepted := Network.validateHandshake now handshake
  (Network.createHandshakeAck now' wallet accepted challenge, accepted)

end Kybernetes
