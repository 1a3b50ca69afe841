import Kybernetes.Base.JsonValue
import Kybernetes.FrameStreams

namespace Kybernetes

namespace Json

/-- An object with names in ASCII, as the derived `Serialize` implementations write structs. -/
def Value.record (entries : List (String × Value)) : Value :=
  .object (entries.map fun entry => (ascii entry.1, entry.2))

def Value.optional (content : Option Bytes) : Value :=
  match content with
  | some written => .text written
  | none => .null

theorem print_text (layout : Layout) (depth : Nat) (content : Bytes) :
    (Value.text content).print layout depth = string content := by
  rw [Value.print]

theorem print_number (layout : Layout) (depth n : Nat) : (Value.number n).print layout depth = number n := by
  rw [Value.print]

theorem print_boolean (layout : Layout) (depth : Nat) (value : Bool) :
    (Value.boolean value).print layout depth = boolean value := by
  rw [Value.print]

theorem enclose_compact (depth : Nat) (bracket close : UInt8) (items : List Bytes) :
    compact.enclose depth bracket close items = bracket :: (separated items ++ [close]) := by
  cases items with
  | nil => rfl
  | cons item items => simp only [Layout.enclose, compact, List.nil_append, List.map_id']

theorem print_array (depth : Nat) (items : List Value) :
    (Value.array items).print compact depth = array (items.map (Value.print compact (depth + 1))) := by
  rw [Value.print, enclose_compact, printItems_eq, array]

theorem print_record (depth : Nat) (entries : List (String × Value)) :
    (Value.record entries).print compact depth =
      object (entries.map fun entry => (entry.1, entry.2.print compact (depth + 1))) := by
  rw [Value.record, Value.print, enclose_compact, printMembers_eq, object, List.map_map, List.map_map]
  rfl

theorem print_optional (layout : Layout) (depth : Nat) (content : Option Bytes) :
    (Value.optional content).print layout depth = Json.optional content := by
  cases content with
  | none => rw [Value.optional, Value.print, Json.optional]
  | some written => rw [Value.optional, print_text, Json.optional]

theorem optional_inj {content content' : Option Bytes} :
    Value.optional content = Value.optional content' ↔ content = content' := by
  cases content with
  | none => cases content' <;> simp [Value.optional]
  | some written => cases content' <;> simp [Value.optional]

/-- Records are compared member by member. -/
theorem record_cons_inj {name : String} {value value' : Value} {entries entries' : List (String × Value)} :
    Value.record ((name, value) :: entries) = Value.record ((name, value') :: entries') ↔
      value = value' ∧ Value.record entries = Value.record entries' := by
  simp only [Value.record, Value.object.injEq, List.map_cons, List.cons.injEq, Prod.mk.injEq, true_and]

end Json

open Json (Value)

def Transaction.value (self : Transaction) : Value :=
  Value.record
    [("id", .text self.id), ("from", .text self.from), ("public_key", .text self.publicKey), ("to", .text self.to),
      ("amount", .number self.amount.toNat), ("fee", .number self.fee.toNat), ("nonce", .number self.nonce.toNat),
      ("signature", Value.optional self.signature), ("coinbase", .boolean self.coinbase),
      ("reward_marker", .number self.rewardMarker.toNat)]

def Block.value (self : Block) : Value :=
  Value.record
    [("index", .number self.index.toNat), ("timestamp", .number self.timestamp.toNat),
      ("previous_hash", .text self.previousHash), ("hash", .text self.hash), ("validator", .text self.validator),
      ("validator_public_key", .text self.validatorPublicKey),
      ("validator_signature", Value.optional self.validatorSignature),
      ("transactions", .array (self.transactions.map Transaction.value))]

def NetworkMessage.value : NetworkMessage → Value
  | .handshake nodeId publicKey listenAddress networkId protocolVersion timestamp challenge signature =>
    Value.record [("Handshake", Value.record
      [("node_id", .text nodeId), ("public_key", .text publicKey), ("listen_address", .text listenAddress),
        ("network_id", .text networkId), ("protocol_version", .number protocolVersion.toNat),
        ("timestamp", .number timestamp.toNat), ("challenge", .text challenge), ("signature", .text signature)])]
  | .handshakeAck nodeId publicKey networkId protocolVersion timestamp challenge accepted signature =>
    Value.record [("HandshakeAck", Value.record
      [("node_id", .text nodeId), ("public_key", .text publicKey), ("network_id", .text networkId),
        ("protocol_version", .number protocolVersion.toNat), ("timestamp", .number timestamp.toNat),
        ("challenge", .text challenge), ("accepted", .boolean accepted), ("signature", .text signature)])]
  | .transaction tx => Value.record [("Transaction", tx.value)]
  | .transactionAck transactionId accepted reason =>
    Value.record [("TransactionAck", Value.record
      [("transaction_id", .text transactionId), ("accepted", .boolean accepted),
        ("reason", Value.optional reason)])]
  | .block received => Value.record [("Block", received.value)]
  | .syncRequest => .text (Json.ascii "SyncRequest")
  | .chainChunkRequest startIndex =>
    Value.record [("ChainChunkRequest", Value.record [("start_index", .number startIndex.toNat)])]
  | .chainChunkResponse startIndex totalBlocks blocks =>
    Value.record [("ChainChunkResponse", Value.record
      [("start_index", .number startIndex.toNat), ("total_blocks", .number totalBlocks.toNat),
        ("blocks", .array (blocks.map Block.value))])]
  | .accountStateRequest address =>
    Value.record [("AccountStateRequest", Value.record [("address", .text address)])]
  | .accountStateResponse address balance nonce tipIndex tipHash =>
    Value.record [("AccountStateResponse", Value.record
      [("address", .text address), ("balance", .number balance.toNat), ("nonce", .number nonce.toNat),
        ("tip_index", .number tipIndex.toNat), ("tip_hash", .text tipHash)])]

/-- The JSON of a transaction is the compact text of its value, wherever it stands. -/
theorem Transaction.value_print (transaction : Transaction) (depth : Nat) :
    transaction.value.print Json.compact depth = transaction.json := by
  simp only [value, Json.print_record, List.map_cons, List.map_nil, Json.print_text, Json.print_number,
    Json.print_boolean, Json.print_optional, json]

theorem Block.value_print (block : Block) (depth : Nat) : block.value.print Json.compact depth = block.json := by
  simp only [value, Json.print_record, List.map_cons, List.map_nil, Json.print_text, Json.print_number,
    Json.print_optional, Json.print_array, List.map_map, Function.comp_def, Transaction.value_print, json]

theorem NetworkMessage.value_print (message : NetworkMessage) : message.value.print Json.compact 0 = message.json := by
  cases message <;>
    simp only [value, Json.print_record, List.map_cons, List.map_nil, Json.print_text, Json.print_number,
      Json.print_boolean, Json.print_optional, Json.print_array, List.map_map, Function.comp_def,
      Transaction.value_print, Block.value_print, json, Json.variant]

theorem Transaction.value_injective : Function.Injective Transaction.value := by
  intro first second same
  cases first
  cases second
  simp only [value, Json.record_cons_inj, Value.text.injEq, Value.number.injEq, Value.boolean.injEq,
    Json.optional_inj, UInt64.toNat_inj, BitVec.toNat_inj, and_true] at same
  simp only [mk.injEq]
  exact same

theorem Block.value_injective : Function.Injective Block.value := by
  intro first second same
  cases first
  cases second
  simp only [value, Json.record_cons_inj, Value.text.injEq, Value.number.injEq, Value.array.injEq,
    Json.optional_inj, UInt64.toNat_inj, (List.map_injective_iff.mpr Transaction.value_injective).eq_iff,
    and_true] at same
  simp only [mk.injEq]
  exact same

namespace NetworkMessage

def variantName : NetworkMessage → String
  | .handshake .. => "Handshake"
  | .handshakeAck .. => "HandshakeAck"
  | .transaction .. => "Transaction"
  | .transactionAck .. => "TransactionAck"
  | .block .. => "Block"
  | .syncRequest => "SyncRequest"
  | .chainChunkRequest .. => "ChainChunkRequest"
  | .chainChunkResponse .. => "ChainChunkResponse"
  | .accountStateRequest .. => "AccountStateRequest"
  | .accountStateResponse .. => "AccountStateResponse"

/-- A variant without data is its name, any other an object with its name. -/
theorem value_shape (message : NetworkMessage) :
    message.value = .text (Json.ascii message.variantName) ∨
      ∃ content, message.value = .object [(Json.ascii message.variantName, content)] := by
  cases message with
  | syncRequest => exact Or.inl rfl
  | _ => exact Or.inr ⟨_, rfl⟩

theorem variantName_eq {message message' : NetworkMessage} (same : message.value = message'.value) :
    Json.ascii message.variantName = Json.ascii message'.variantName := by
  rcases message.value_shape with text | ⟨content, object⟩
  · rcases message'.value_shape with text' | ⟨content', object'⟩
    · rw [text, text', Value.text.injEq] at same
      exact same
    · rw [text, object'] at same
      cases same
  · rcases message'.value_shape with text' | ⟨content', object'⟩
    · rw [object, text'] at same
      cases same
    · rw [object, object', Value.object.injEq, List.cons.injEq, Prod.mk.injEq] at same
      exact same.1.1

theorem value_injective : Function.Injective NetworkMessage.value := by
  intro first second same
  have names := variantName_eq same
  cases first <;> cases second <;> dsimp only [variantName] at names
  -- two variants with different names are no equal values; one variant is compared field by field
  all_goals first
    | exact absurd names (by decide)
    | rfl
    | (simp only [value, Json.record_cons_inj, Value.text.injEq, Value.number.injEq, Value.boolean.injEq,
        Value.array.injEq, Json.optional_inj, UInt64.toNat_inj, UInt32.toNat_inj, and_true,
        Transaction.value_injective.eq_iff, Block.value_injective.eq_iff,
        (List.map_injective_iff.mpr Block.value_injective).eq_iff] at same
       simp only [same])

/-- The JSON text of a message says which message it is. -/
theorem json_injective : Function.Injective NetworkMessage.json := by
  intro first second same
  rw [← first.value_print, ← second.value_print] at same
  exact value_injective (Value.print_injective Json.compact 0 same)

end NetworkMessage

/-- What is relied upon of `serde_json::from_slice`: it reads every message back that was written. -/
def Decodes (fromSlice : Bytes → Except String NetworkMessage) : Prop :=
  ∀ message, fromSlice message.json = .ok message

open Classical in
theorem exists_decodes : ∃ fromSlice, Decodes fromSlice := by
  refine ⟨fun payload => if written : ∃ message : NetworkMessage, message.json = payload then .ok written.choose
    else .error "expected value at line 1 column 1", fun message => ?_⟩
  have written : ∃ other : NetworkMessage, other.json = message.json := ⟨message, rfl⟩
  dsimp only
  rw [dif_pos written, NetworkMessage.json_injective written.choose_spec]

namespace TcpTransport

/-- Whatever follows a frame, the message in it and what follows can be told. -/
theorem frame_unambiguous : Unambiguous {message | Sendable message} frame := by
  intro message sendable message' sendable' r s same
  have limit : maxNetworkMessageBytes < 256 ^ 4 := by decide
  simp only [frame, List.append_assoc] at same
  obtain ⟨headers, rest⟩ := List.append_inj same (by rw [bigEndian_length, bigEndian_length])
  have lengths := bigEndian_inj (lt_of_le_of_lt sendable.2 limit) (lt_of_le_of_lt sendable'.2 limit) headers
  obtain ⟨payload, behind⟩ := List.append_inj rest lengths
  exact ⟨NetworkMessage.json_injective payload, behind⟩

theorem frame_ne_nil (message : NetworkMessage) : frame message ≠ [] := by
  intro empty
  have length := congrArg List.length empty
  rw [frame, List.length_append, bigEndian_length, List.length_nil] at length
  omega

/-- The bytes on a connection say which messages were sent, in which order: two sequences of
messages that are written as the same bytes are the same. -/
theorem sendMessages_injective {messages messages' : List NetworkMessage} {written : Bytes}
    (sent : sendMessages messages = .ok written) (sent' : sendMessages messages' = .ok written) :
    messages = messages' := by
  obtain ⟨sendable, bytes⟩ := sendMessages_eq_ok.mp sent
  obtain ⟨sendable', bytes'⟩ := sendMessages_eq_ok.mp sent'
  have same : messages.flatMap frame = messages'.flatMap frame := bytes.symm.trans bytes'
  clear sent sent' bytes bytes'
  induction messages generalizing messages' with
  | nil =>
    cases messages' with
    | nil => rfl
    | cons message' messages' =>
      rw [List.flatMap_nil, List.flatMap_cons] at same
      exact absurd (List.append_eq_nil_iff.mp same.symm).1 (frame_ne_nil message')
  | cons message messages ih =>
    cases messages' with
    | nil =>
      rw [List.flatMap_nil, List.flatMap_cons] at same
      exact absurd (List.append_eq_nil_iff.mp same).1 (frame_ne_nil message)
    | cons message' messages' =>
      rw [List.flatMap_cons, List.flatMap_cons] at same
      obtain ⟨rfl, rest⟩ := frame_unambiguous message (sendable message (by simp)) message'
        (sendable' message' (by simp)) _ _ same
      rw [ih (fun m member => sendable m (by simp [member])) (fun m member => sendable' m (by simp [member])) rest]

end TcpTransport

open TcpTransport in
/-- Whatever is written as the two example requests are is those two requests. -/
theorem Fixture.requests_are_determined : ∃ written, sendMessages requests = .ok written ∧
    requests = [.syncRequest, .chainChunkRequest 5] := by
  have sendable : ∀ message ∈ requests, Sendable message := by decide +kernel
  have sent : sendMessages requests = .ok (requests.flatMap frame) := sendMessages_eq_ok.mpr ⟨sendable, rfl⟩
  exact ⟨_, sent, sendMessages_injective sent sent⟩

end Kybernetes
