import Kybernetes.Base.Decimal
import Kybernetes.Core

namespace Kybernetes

/-- `Display` of a truth value. -/
def showBool (value : Bool) : Text :=
  if value then str "true" else str "false"

namespace Wallet

def nodeHandshakeMessage (nodeId publicKeyHex listenAddress networkId : Text) (protocolVersion : UInt32)
    (timestamp : UInt64) (challenge : Text) : Bytes :=
  str "AION_P2P_HANDSHAKE_V1\nnode_id=" ++ nodeId ++ str "\npublic_key=" ++ publicKeyHex
    ++ str "\nlisten_address=" ++ listenAddress ++ str "\nnetwork_id=" ++ networkId
    ++ str "\nprotocol_version=" ++ decimal protocolVersion.toNat ++ str "\ntimestamp="
    ++ decimal timestamp.toNat ++ str "\nchallenge=" ++ challenge

def nodeHandshakeAckMessage (nodeId publicKeyHex networkId : Text) (protocolVersion : UInt32)
    (timestamp : UInt64) (challenge : Text) (accepted : Bool) : Bytes :=
  str "AION_P2P_HANDSHAKE_ACK_V1\nnode_id=" ++ nodeId ++ str "\npublic_key=" ++ publicKeyHex
    ++ str "\nnetwork_id=" ++ networkId ++ str "\nprotocol_version=" ++ decimal protocolVersion.toNat
    ++ str "\ntimestamp=" ++ decimal timestamp.toNat ++ str "\nchallenge=" ++ challenge
    ++ str "\naccepted=" ++ showBool accepted

variable [Crypto]

def nodeId (self : Wallet) : Text :=
  self.address

def signNodeHandshake (self : Wallet) (listenAddress networkId : Text) (protocolVersion : UInt32)
    (timestamp : UInt64) (challenge : Text) : Text :=
  self.sign (nodeHandshakeMessage self.nodeId self.publicKeyHex listenAddress networkId protocolVersion
    timestamp challenge)

def verifyNodeHandshake (nodeId publicKeyHex listenAddress networkId : Text) (protocolVersion : UInt32)
    (timestamp : UInt64) (challenge signatureHex : Text) : Bool :=
  match addressFromPublicKey publicKeyHex with
  | none => false
  | some derivedNodeId =>
    if derivedNodeId ≠ nodeId then false
    else
      verify publicKeyHex
        (nodeHandshakeMessage nodeId publicKeyHex listenAddress networkId protocolVersion timestamp challenge)
        signatureHex

def signNodeHandshakeAck (self : Wallet) (networkId : Text) (protocolVersion : UInt32) (timestamp : UInt64)
    (challenge : Text) (accepted : Bool) : Text :=
  self.sign (nodeHandshakeAckMessage self.nodeId self.publicKeyHex networkId protocolVersion timestamp
    challenge accepted)

def verifyNodeHandshakeAck (nodeId publicKeyHex networkId : Text) (protocolVersion : UInt32)
    (timestamp : UInt64) (challenge : Text) (accepted : Bool) (signatureHex : Text) : Bool :=
  match addressFromPublicKey publicKeyHex with
  | none => false
  | some derivedNodeId =>
    if derivedNodeId ≠ nodeId then false
    else
      verify publicKeyHex
        (nodeHandshakeAckMessage nodeId publicKeyHex networkId protocolVersion timestamp challenge accepted)
        signatureHex

end Wallet

end Kybernetes
