import Kybernetes.Commitment
import Kybernetes.Network
import Kybernetes.ProducerAgreement

namespace Kybernetes

/-- Everything the program signs, with one key for all of it: a wallet signs
transactions, and a node block hashes and both sides of a handshake. -/
inductive SignedPayload
  | transaction (transaction : Transaction)
  | blockHash (hash : Text)
  | handshake (nodeId publicKey listenAddress : Text) (timestamp : UInt64) (challenge : Text)
  | handshakeAck (nodeId publicKey : Text) (timestamp : UInt64) (challenge : Text) (accepted : Bool)

namespace SignedPayload

/-- The bytes that are signed. -/
def bytes : SignedPayload → Bytes
  | .transaction tx => tx.message
  | .blockHash hash => hash
  | .handshake nodeId publicKey listenAddress timestamp challenge =>
    Wallet.nodeHandshakeMessage nodeId publicKey listenAddress networkId networkProtocolVersion timestamp challenge
  | .handshakeAck nodeId publicKey timestamp challenge accepted =>
    Wallet.nodeHandshakeAckMessage nodeId publicKey networkId networkProtocolVersion timestamp challenge accepted

/-- The formats the signer keeps to. A string has fewer than `2 ^ 64` bytes, a
block hash is in lower case; the address of a handshake and the challenge of
its answer can be any text. -/
def WellFormed : SignedPayload → Prop
  | .transaction tx => tx.from.length < 2 ^ 64 ∧ tx.publicKey.length < 2 ^ 64 ∧ tx.to.length < 2 ^ 64
  | .blockHash hash => ∃ digest : FixedBytes 32, hash = hexEncode digest.val
  | .handshake nodeId publicKey _ _ challenge =>
    isFixedHex nodeId 64 = true ∧ isFixedHex publicKey 64 = true ∧ isFixedHex challenge 64 = true
  | .handshakeAck nodeId publicKey _ _ _ => isFixedHex nodeId 64 = true ∧ isFixedHex publicKey 64 = true

/-- The same kind with the same signed fields: the id and the signature of a
transaction are not signed. -/
def Same : SignedPayload → SignedPayload → Prop
  | .transaction tx, .transaction other => tx = { other with id := tx.id, signature := tx.signature }
  | payload, payload' => payload = payload'

end SignedPayload

section Formats

/-- The text between the address of a handshake and its timestamp. -/
def handshakeMiddle : Text :=
  str "\nnetwork_id=" ++ networkId ++ str "\nprotocol_version=" ++ decimal networkProtocolVersion.toNat
    ++ str "\ntimestamp="

theorem decimal_free {byte : UInt8} (outside : byte < 48 ∨ 57 < byte) (n : Nat) : byte ∉ decimal n := by
  intro member
  obtain ⟨low, high⟩ := decimal_mem member
  rcases outside with below | above
  · exact absurd low (UInt8.not_le.mpr below)
  · exact absurd high (UInt8.not_le.mpr above)

/-- The middle ends in `=`, which no number contains. -/
theorem handshakeMiddle_eq : handshakeMiddle = handshakeMiddle.dropLast ++ [61] := by
  decide +kernel

theorem nodeHandshakeMessage_eq (nodeId publicKey listenAddress : Text) (timestamp : UInt64) (challenge : Text) :
    Wallet.nodeHandshakeMessage nodeId publicKey listenAddress networkId networkProtocolVersion timestamp
        challenge =
      str "AION_P2P_HANDSHAKE_V1\nnode_id=" ++ (nodeId ++ (str "\npublic_key=" ++ (publicKey ++
        (str "\nlisten_address=" ++ (listenAddress ++ handshakeMiddle.dropLast ++ 61 :: decimal timestamp.toNat
          ++ (str "\nchallenge=" ++ challenge)))))) := by
  have middle : handshakeMiddle.dropLast ++ 61 :: decimal timestamp.toNat =
      handshakeMiddle ++ decimal timestamp.toNat := by
    conv_rhs => rw [handshakeMiddle_eq]
    rw [List.append_assoc, List.singleton_append]
  simp only [List.append_assoc, middle]
  simp only [Wallet.nodeHandshakeMessage, handshakeMiddle, List.append_assoc]

/-- From the front up to the address, from the back down to the timestamp. -/
theorem nodeHandshakeMessage_inj {nodeId publicKey listenAddress challenge : Text} {timestamp : UInt64}
    {nodeId' publicKey' listenAddress' challenge' : Text} {timestamp' : UInt64}
    (node : nodeId.length = nodeId'.length) (key : publicKey.length = publicKey'.length)
    (length : challenge.length = challenge'.length)
    (same : Wallet.nodeHandshakeMessage nodeId publicKey listenAddress networkId networkProtocolVersion timestamp
        challenge =
      Wallet.nodeHandshakeMessage nodeId' publicKey' listenAddress' networkId networkProtocolVersion timestamp'
        challenge') :
    nodeId = nodeId' ∧ publicKey = publicKey' ∧ listenAddress = listenAddress' ∧ timestamp = timestamp' ∧
      challenge = challenge' := by
  rw [nodeHandshakeMessage_eq, nodeHandshakeMessage_eq] at same
  obtain ⟨rfl, keys⟩ := List.append_inj (List.append_cancel_left same) node
  obtain ⟨rfl, rest⟩ := List.append_inj (List.append_cancel_left keys) key
  obtain ⟨front, back⟩ := List.append_inj' (List.append_cancel_left rest) (by simp [length])
  have free : ∀ n, (61 : UInt8) ∉ decimal n := decimal_free (by decide)
  obtain ⟨address, digits⟩ := separator_append_inj (free _) (free _) front
  exact ⟨rfl, rfl, List.append_cancel_right address, UInt64.toNat_inj.mp (decimal_inj digits),
    List.append_cancel_left back⟩

theorem nodeHandshakeAckMessage_eq (nodeId publicKey : Text) (timestamp : UInt64) (challenge : Text)
    (accepted : Bool) :
    Wallet.nodeHandshakeAckMessage nodeId publicKey networkId networkProtocolVersion timestamp challenge
        accepted =
      str "AION_P2P_HANDSHAKE_ACK_V1\nnode_id=" ++ (nodeId ++ (str "\npublic_key=" ++ (publicKey ++
        (handshakeMiddle ++ (decimal timestamp.toNat ++ 10 :: (str "challenge=" ++ (challenge
          ++ str "\naccepted=" ++ showBool accepted))))))) := by
  have line : str "\nchallenge=" = 10 :: str "challenge=" := by decide
  simp only [Wallet.nodeHandshakeAckMessage, handshakeMiddle, List.append_assoc, line, List.cons_append]

theorem verdict_inj {challenge challenge' : Text} {accepted accepted' : Bool}
    (same : challenge ++ str "\naccepted=" ++ showBool accepted =
      challenge' ++ str "\naccepted=" ++ showBool accepted') : challenge = challenge' ∧ accepted = accepted' := by
  -- the last four bytes tell the verdicts apart
  have refused : ∀ text : Text, text ++ str "\naccepted=" ++ showBool false =
      (text ++ str "\naccepted=f") ++ str "alse" := by
    intro text
    rw [List.append_assoc, List.append_assoc]
    congr 1
  cases accepted with
  | true =>
    cases accepted' with
    | true => exact ⟨List.append_cancel_right (List.append_cancel_right same), rfl⟩
    | false =>
      rw [refused] at same
      exact absurd (List.append_inj' same (by decide)).2 (by decide)
  | false =>
    cases accepted' with
    | true =>
      rw [refused] at same
      exact absurd (List.append_inj' same (by decide)).2 (by decide)
    | false => exact ⟨List.append_cancel_right (List.append_cancel_right same), rfl⟩

/-- From the front down to the challenge; the verdict stands behind it. -/
theorem nodeHandshakeAckMessage_inj {nodeId publicKey challenge : Text} {timestamp : UInt64} {accepted : Bool}
    {nodeId' publicKey' challenge' : Text} {timestamp' : UInt64} {accepted' : Bool}
    (node : nodeId.length = nodeId'.length) (key : publicKey.length = publicKey'.length)
    (same : Wallet.nodeHandshakeAckMessage nodeId publicKey networkId networkProtocolVersion timestamp challenge
        accepted =
      Wallet.nodeHandshakeAckMessage nodeId' publicKey' networkId networkProtocolVersion timestamp' challenge'
        accepted') :
    nodeId = nodeId' ∧ publicKey = publicKey' ∧ timestamp = timestamp' ∧ challenge = challenge' ∧
      accepted = accepted' := by
  rw [nodeHandshakeAckMessage_eq, nodeHandshakeAckMessage_eq] at same
  obtain ⟨rfl, keys⟩ := List.append_inj (List.append_cancel_left same) node
  obtain ⟨rfl, rest⟩ := List.append_inj (List.append_cancel_left keys) key
  have free : ∀ n, (10 : UInt8) ∉ decimal n := decimal_free (by decide)
  obtain ⟨digits, behind⟩ := append_separator_inj (free _) (free _) (List.append_cancel_left rest)
  obtain ⟨rfl, rfl⟩ := verdict_inj (List.append_cancel_left behind)
  exact ⟨rfl, rfl, UInt64.toNat_inj.mp (decimal_inj digits), rfl, rfl⟩

end Formats

namespace SignedPayload

/-- The first bytes of a payload that is not a block hash. -/
def header : SignedPayload → Text
  | .transaction _ => str "AION_TX_V1"
  | .blockHash _ => []
  | .handshake .. => str "AION_P2P_HANDSHAKE_V1"
  | .handshakeAck .. => str "AION_P2P_HANDSHAKE_ACK_V1"

theorem header_isPrefix (payload : SignedPayload) : payload.header <+: payload.bytes := by
  cases payload with
  | transaction tx =>
    simp only [header, bytes, Transaction.message, appendBytes, List.append_assoc]
    exact List.prefix_append _ _
  | blockHash hash => exact List.nil_prefix
  | handshake =>
    have line : str "AION_P2P_HANDSHAKE_V1\nnode_id=" = str "AION_P2P_HANDSHAKE_V1" ++ str "\nnode_id=" := by
      decide +kernel
    simp only [header, bytes, Wallet.nodeHandshakeMessage, line, List.append_assoc]
    exact List.prefix_append _ _
  | handshakeAck =>
    have line : str "AION_P2P_HANDSHAKE_ACK_V1\nnode_id=" =
        str "AION_P2P_HANDSHAKE_ACK_V1" ++ str "\nnode_id=" := by
      decide +kernel
    simp only [header, bytes, Wallet.nodeHandshakeAckMessage, line, List.append_assoc]
    exact List.prefix_append _ _

/-- Payloads whose headers part are different. -/
theorem bytes_ne_of_headers {payload payload' : SignedPayload}
    (apart : ¬ payload.header <+: payload'.header ∧ ¬ payload'.header <+: payload.header) :
    payload.bytes ≠ payload'.bytes := by
  intro same
  have front := payload.header_isPrefix
  have front' := payload'.header_isPrefix
  rw [same] at front
  rcases Nat.le_total payload.header.length payload'.header.length with shorter | shorter
  · exact apart.1 (List.prefix_of_prefix_length_le front front' shorter)
  · exact apart.2 (List.prefix_of_prefix_length_le front' front shorter)

theorem hexDigit_ne_upper : ∀ nibble : UInt8, nibble < 16 → hexDigit nibble ≠ 65 :=
  forall_byte (by decide +kernel)

/-- A text in lower case has no `A`, with which every header begins. -/
theorem blockHash_bytes_ne {digest : FixedBytes 32} {payload : SignedPayload} {rest : Text}
    (header : payload.header = 65 :: rest) : (blockHash (hexEncode digest.val)).bytes ≠ payload.bytes := by
  intro same
  have front := payload.header_isPrefix
  rw [← same, header] at front
  obtain ⟨byte, _, which⟩ := List.mem_flatMap.mp (front.mem (List.mem_cons_self ..))
  obtain ⟨high, low⟩ := nibbles_lt byte
  simp only [List.mem_cons, List.not_mem_nil, or_false] at which
  rcases which with upper | upper
  · exact hexDigit_ne_upper _ high upper.symm
  · exact hexDigit_ne_upper _ low upper.symm

theorem transaction_same {tx other : Transaction} (wellFormed : (transaction tx).WellFormed)
    (wellFormed' : (transaction other).WellFormed) (same : tx.message = other.message) :
    (transaction tx).Same (transaction other) := by
  -- the message ignores the id and the signature, so both can be left out
  have bare : ∀ {t : Transaction}, (transaction t).WellFormed →
      ({ t with id := [], signature := none } : Transaction).Encodable := by
    rintro t ⟨sender, publicKey, receiver⟩
    exact ⟨by simp, sender, publicKey, receiver, by simp⟩
  have whole := Transaction.message_inj (bare wellFormed) (bare wellFormed') same
  obtain ⟨id, sender, publicKey, receiver, amount, fee, nonce, signature, coinbase, marker⟩ := tx
  simp only [Transaction.mk.injEq, true_and] at whole
  obtain ⟨rfl, rfl, rfl, rfl, rfl, rfl, rfl, rfl⟩ := whole
  rfl

/-- A signature authenticates one thing only: payloads with the same bytes are
of one kind and have the same signed fields. -/
theorem same_of_bytes_eq {payload payload' : SignedPayload} (wellFormed : payload.WellFormed)
    (wellFormed' : payload'.WellFormed) (same : payload.bytes = payload'.bytes) : payload.Same payload' := by
  cases payload with
  | transaction tx =>
    cases payload' with
    | transaction other => exact transaction_same wellFormed wellFormed' same
    | blockHash hash =>
      obtain ⟨digest, rfl⟩ := wellFormed'
      exact absurd same.symm (blockHash_bytes_ne rfl)
    | handshake | handshakeAck => exact absurd same (bytes_ne_of_headers (by simp only [header]; decide))
  | blockHash hash =>
    obtain ⟨digest, rfl⟩ := wellFormed
    cases payload' with
    | blockHash other => exact congrArg blockHash same
    | transaction | handshake | handshakeAck => exact absurd same (blockHash_bytes_ne rfl)
  | handshake nodeId publicKey listenAddress timestamp challenge =>
    cases payload' with
    | handshake nodeId' publicKey' listenAddress' timestamp' challenge' =>
      obtain ⟨node, key, length⟩ := wellFormed
      obtain ⟨node', key', length'⟩ := wellFormed'
      obtain ⟨rfl, rfl, rfl, rfl, rfl⟩ := nodeHandshakeMessage_inj
        ((isFixedHex_length node).trans (isFixedHex_length node').symm)
        ((isFixedHex_length key).trans (isFixedHex_length key').symm)
        ((isFixedHex_length length).trans (isFixedHex_length length').symm) same
      rfl
    | blockHash hash =>
      obtain ⟨digest, rfl⟩ := wellFormed'
      exact absurd same.symm (blockHash_bytes_ne rfl)
    | transaction | handshakeAck => exact absurd same (bytes_ne_of_headers (by simp only [header]; decide))
  | handshakeAck nodeId publicKey timestamp challenge accepted =>
    cases payload' with
    | handshakeAck nodeId' publicKey' timestamp' challenge' accepted' =>
      obtain ⟨node, key⟩ := wellFormed
      obtain ⟨node', key'⟩ := wellFormed'
      obtain ⟨rfl, rfl, rfl, rfl, rfl⟩ := nodeHandshakeAckMessage_inj
        ((isFixedHex_length node).trans (isFixedHex_length node').symm)
        ((isFixedHex_length key).trans (isFixedHex_length key').symm) same
      rfl
    | blockHash hash =>
      obtain ⟨digest, rfl⟩ := wellFormed'
      exact absurd same.symm (blockHash_bytes_ne rfl)
    | transaction | handshake => exact absurd same (bytes_ne_of_headers (by simp only [header]; decide))

end SignedPayload

section

variable [Crypto]

/-- The signatures a wallet gives are signatures of well-formed payloads. -/
theorem Wallet.signNodeHandshake_payload (wallet : Wallet) (listenAddress : Text) (timestamp : UInt64)
    (randomBytes : FixedBytes 32) :
    let payload := SignedPayload.handshake wallet.nodeId wallet.publicKeyHex listenAddress timestamp
      (hexEncode randomBytes.val)
    payload.WellFormed ∧ wallet.signNodeHandshake listenAddress networkId networkProtocolVersion timestamp
      (hexEncode randomBytes.val) = wallet.sign payload.bytes :=
  ⟨⟨wallet.address_fixed, wallet.publicKeyHex_fixed, isFixedHex_hexEncode randomBytes⟩, rfl⟩

theorem Wallet.signNodeHandshakeAck_payload (wallet : Wallet) (timestamp : UInt64) (challenge : Text)
    (accepted : Bool) :
    let payload := SignedPayload.handshakeAck wallet.nodeId wallet.publicKeyHex timestamp challenge accepted
    payload.WellFormed ∧ wallet.signNodeHandshakeAck networkId networkProtocolVersion timestamp challenge accepted =
      wallet.sign payload.bytes :=
  ⟨⟨wallet.address_fixed, wallet.publicKeyHex_fixed⟩, rfl⟩

theorem Block.hash_payload (block : Block) : (SignedPayload.blockHash block.calculateHash).WellFormed :=
  ⟨Crypto.sha256 block.hashData, rfl⟩

end

open Fixture in
/-- The signature of a payment is one of the payment without its signature. -/
theorem Fixture.transfer_payload :
    (SignedPayload.transaction transfer).Same (.transaction { transfer with id := [], signature := none }) :=
  SignedPayload.same_of_bytes_eq ⟨by decide +kernel, by decide +kernel, by decide +kernel⟩
    ⟨by decide +kernel, by decide +kernel, by decide +kernel⟩ rfl

end Kybernetes
