import Kybernetes.Base.Effect
import Kybernetes.MessageCodec
import Kybernetes.MessageSizes
import Kybernetes.TransactionSubmission

namespace Kybernetes

/-- One end of a TCP connection: the answers to its opening and to the writes of the successive
messages, what the other end delivers, and the messages that were written. -/
structure Connection where
  opening : Except String Unit
  writes : Nat → Except String Unit
  stream : List Bytes
  sent : List NetworkMessage

/-- What one side draws and reads when it opens an authenticated connection: the clock and the
random bytes of the handshake, and the clock when the answer is checked. -/
structure ConnectEnvironment where
  created : SystemTime
  randomBytes : FixedBytes 32
  validated : SystemTime

/-- The clocks of the two readings are at most as far apart as a handshake may be old. -/
def Near (now now' : SystemTime) : Prop :=
  Network.handshakeTimestampValid now' (NodeRuntime.currentTimestamp now) = true

instance (now now' : SystemTime) : Decidable (Near now now') :=
  inferInstanceAs (Decidable (_ = _))

namespace TcpTransport

/-- `connect`. -/
def «open» : Effect Connection Unit :=
  fun connection =>
    match connection.opening with
    | .error error => (.error (.error ("Peer connection could not be established: " ++ error)), connection)
    | .ok () => (.ok (), connection)

/-- `send_message`. The error of a write says which part of the message it belongs to. -/
def send (message : NetworkMessage) : Effect Connection Unit :=
  fun connection =>
    match sendMessage message with
    | .error fault => (.error fault, connection)
    | .ok _ =>
      match connection.writes connection.sent.length with
      | .error error => (.error (.error error), connection)
      | .ok () => (.ok (), { connection with sent := connection.sent ++ [message] })

def readOrEof (fromSlice : Bytes → Except String NetworkMessage) : Effect Connection (Option NetworkMessage) :=
  fun connection =>
    ((readMessageOrEof fromSlice connection.stream).1,
      { connection with stream := (readMessageOrEof fromSlice connection.stream).2 })

/-- `read_message`. -/
def read (fromSlice : Bytes → Except String NetworkMessage) : Effect Connection NetworkMessage := do
  let message ← readOrEof fromSlice
  Effect.lift (okOr message "Network connection closed while waiting for a message")

end TcpTransport

section

variable [Crypto]

def Network.validateHandshakeAck (now : SystemTime) (message : NetworkMessage) (expectedChallenge : Text) : Bool :=
  match message with
  | .handshakeAck nodeId publicKey networkId protocolVersion timestamp challenge accepted signature =>
    accepted && challenge == expectedChallenge && handshakeAckFieldsValid nodeId networkId protocolVersion
      && handshakeTimestampValid now timestamp
      && Wallet.verifyNodeHandshakeAck nodeId publicKey networkId protocolVersion timestamp challenge accepted
        signature
  | _ => false

/-- The message a connecting side begins with. -/
def ConnectEnvironment.handshake (env : ConnectEnvironment) (wallet : Wallet) (listenAddress : Text) :
    NetworkMessage :=
  Network.createHandshake env.created env.randomBytes wallet listenAddress

namespace TcpTransport

def connectAuthenticated (fromSlice : Bytes → Except String NetworkMessage) (env : ConnectEnvironment)
    (wallet : Wallet) (listenAddress : Text) : Effect Connection Unit := do
  let handshake := env.handshake wallet listenAddress
  let expectedChallenge ← Effect.lift (okOr (Network.handshakeChallenge handshake)
    "Handshake challenge could not be created")
  «open»
  send handshake
  let response ← read fromSlice
  Effect.lift (rejectIf (¬ Network.validateHandshakeAck env.validated response expectedChallenge)
    "Peer HandshakeAck validation failed")

def sendAuthenticatedMessage (fromSlice : Bytes → Except String NetworkMessage) (env : ConnectEnvironment)
    (wallet : Wallet) (listenAddress : Text) (message : NetworkMessage) : Effect Connection Unit := do
  connectAuthenticated fromSlice env wallet listenAddress
  send message

/-- The accepting side of a connection. `now` is the clock when the handshake is checked, `now'`
when the answer is made. -/
def acceptHandshake (fromSlice : Bytes → Except String NetworkMessage) (now now' : SystemTime)
    (wallet : Wallet) : Effect Connection NetworkMessage := do
  let handshake ← read fromSlice
  let (handshakeAck, accepted) := authenticateIncoming now now' wallet handshake
  send handshakeAck
  Effect.lift (rejectIf (¬ accepted) "Peer handshake validation failed")
  return handshake

end TcpTransport

/-! ### Two sides that follow the protocol -/

namespace TcpTransport

variable {fromSlice : Bytes → Except String NetworkMessage} {connection : Connection} {message : NetworkMessage}

variable (connection) in
omit [Crypto] in
theorem readOrEof_frame {rest : Bytes} (decodes : Decodes fromSlice) (sendable : Sendable message)
    (whole : connection.stream.flatten = frame message ++ rest) :
    ∃ tail, readOrEof fromSlice connection = (.ok (some message), { connection with stream := tail }) ∧
      tail.flatten = rest := by
  obtain ⟨tail, run, left⟩ := readMessageOrEof_frame sendable (decodes message) whole
  exact ⟨tail, by rw [readOrEof, run], left⟩

variable (fromSlice) in
omit [Crypto] in
theorem readOrEof_end (ended : connection.stream.flatten = []) :
    ∃ tail, readOrEof fromSlice connection = (.ok none, { connection with stream := tail }) ∧ tail.flatten = [] := by
  obtain ⟨tail, run, left⟩ := readMessageOrEof_end fromSlice ended
  exact ⟨tail, by rw [readOrEof, run], left⟩

variable (connection) in
omit [Crypto] in
theorem read_frame {rest : Bytes} (decodes : Decodes fromSlice) (sendable : Sendable message)
    (whole : connection.stream.flatten = frame message ++ rest) :
    ∃ tail, read fromSlice connection = (.ok message, { connection with stream := tail }) ∧ tail.flatten = rest := by
  obtain ⟨tail, run, left⟩ := readOrEof_frame connection decodes sendable whole
  exact ⟨tail, Effect.bind_of_ok run, left⟩

variable (fromSlice connection) in
omit [Crypto] in
/-- Reading uses up the stream and nothing else. -/
theorem read_cases : ∃ result tail, read fromSlice connection = (result, { connection with stream := tail }) := by
  have first : readOrEof fromSlice connection = ((readMessageOrEof fromSlice connection.stream).1,
      { connection with stream := (readMessageOrEof fromSlice connection.stream).2 }) := rfl
  cases outcome : (readMessageOrEof fromSlice connection.stream).1 with
  | error fault =>
    rw [outcome] at first
    exact ⟨_, _, Effect.bind_of_error first⟩
  | ok message =>
    rw [outcome] at first
    exact ⟨_, _, Effect.bind_of_ok first⟩

variable (connection) in
omit [Crypto] in
theorem send_of_sendable (sendable : Sendable message)
    (answered : connection.writes connection.sent.length = .ok ()) :
    send message connection = (.ok (), { connection with sent := connection.sent ++ [message] }) := by
  have fits := sendMessage_eq_ok.mpr ⟨sendable, rfl⟩
  simp only [send, fits, answered]

variable (message connection) in
omit [Crypto] in
/-- A message was sent or nothing has changed. -/
theorem send_cases :
    (∃ fault, send message connection = (.error fault, connection)) ∨
      Sendable message ∧ send message connection = (.ok (), { connection with sent := connection.sent ++ [message] }) := by
  cases fits : sendMessage message with
  | error fault => exact Or.inl ⟨fault, by simp only [send, fits]⟩
  | ok written =>
    have sendable := (sendMessage_eq_ok.mp fits).1
    cases answered : connection.writes connection.sent.length with
    | error error => exact Or.inl ⟨.error error, by simp only [send, fits, answered]⟩
    | ok done => exact Or.inr ⟨sendable, send_of_sendable connection sendable (by rw [answered])⟩

end TcpTransport

omit [Crypto] in
theorem Json.string_length_le (text : Bytes) : (string text).length ≤ 6 * text.length + 2 := by
  have each : ∀ byte, (escape byte).length ≤ 6 := forall_byte (by decide +kernel)
  rw [string_length]
  induction text with
  | nil => decide
  | cons byte text ih =>
    have first := each byte
    rw [List.flatMap_cons, List.length_append, List.length_cons]
    omega

namespace NetworkMessage

omit [Crypto] in
theorem handshake_length_le {nodeId publicKey listenAddress challenge signature : Text} (timestamp : UInt64)
    (node : isFixedHex nodeId addressHexLength = true) (key : isFixedHex publicKey publicKeyHexLength = true)
    (address : listenAddress.length ≤ maxPeerAddressLength) (drawn : isFixedHex challenge 64 = true)
    (signed : isFixedHex signature signatureHexLength = true) :
    (handshake nodeId publicKey listenAddress networkId networkProtocolVersion timestamp challenge
      signature).json.length ≤ 3000 := by
  have names : (Json.string (Json.ascii "Handshake")).length = 11 ∧
      (Json.string (Json.ascii "node_id")).length = 9 ∧ (Json.string (Json.ascii "public_key")).length = 12 ∧
      (Json.string (Json.ascii "listen_address")).length = 16 ∧
      (Json.string (Json.ascii "network_id")).length = 12 ∧
      (Json.string (Json.ascii "protocol_version")).length = 18 ∧
      (Json.string (Json.ascii "timestamp")).length = 11 ∧
      (Json.string (Json.ascii "challenge")).length = 11 ∧ (Json.string (Json.ascii "signature")).length = 11 := by
    decide +kernel
  have constants : (Json.string networkId).length = 23 ∧ (decimal networkProtocolVersion.toNat).length = 1 ∧
      maxPeerAddressLength = 256 := by
    decide +kernel
  have nodeLength : (Json.string nodeId).length = 66 := Json.string_length_of_isFixedHex node
  have keyLength : (Json.string publicKey).length = 66 := Json.string_length_of_isFixedHex key
  have challengeLength : (Json.string challenge).length = 66 := Json.string_length_of_isFixedHex drawn
  have signatureLength : (Json.string signature).length = 130 := Json.string_length_of_isFixedHex signed
  have addressLength := Json.string_length_le listenAddress
  have time := decimal_length_le_word timestamp
  simp only [json, Json.variant, Json.object_length, List.map_cons, List.map_nil, List.sum_cons, List.sum_nil,
    List.length_cons, List.length_nil, names, Json.number, constants, nodeLength, keyLength, challengeLength,
    signatureLength]
  omega

omit [Crypto] in
theorem handshakeAck_length_le {nodeId publicKey challenge signature : Text} (timestamp : UInt64) (accepted : Bool)
    (node : isFixedHex nodeId addressHexLength = true) (key : isFixedHex publicKey publicKeyHexLength = true)
    (drawn : isFixedHex challenge 64 = true) (signed : isFixedHex signature signatureHexLength = true) :
    (handshakeAck nodeId publicKey networkId networkProtocolVersion timestamp challenge accepted
      signature).json.length ≤ 3000 := by
  have names : (Json.string (Json.ascii "HandshakeAck")).length = 14 ∧
      (Json.string (Json.ascii "node_id")).length = 9 ∧ (Json.string (Json.ascii "public_key")).length = 12 ∧
      (Json.string (Json.ascii "network_id")).length = 12 ∧
      (Json.string (Json.ascii "protocol_version")).length = 18 ∧
      (Json.string (Json.ascii "timestamp")).length = 11 ∧
      (Json.string (Json.ascii "challenge")).length = 11 ∧ (Json.string (Json.ascii "accepted")).length = 10 ∧
      (Json.string (Json.ascii "signature")).length = 11 := by
    decide +kernel
  have constants : (Json.string networkId).length = 23 ∧ (decimal networkProtocolVersion.toNat).length = 1 := by
    decide +kernel
  have nodeLength : (Json.string nodeId).length = 66 := Json.string_length_of_isFixedHex node
  have keyLength : (Json.string publicKey).length = 66 := Json.string_length_of_isFixedHex key
  have challengeLength : (Json.string challenge).length = 66 := Json.string_length_of_isFixedHex drawn
  have signatureLength : (Json.string signature).length = 130 := Json.string_length_of_isFixedHex signed
  have verdict : (Json.boolean accepted).length ≤ 5 := by cases accepted <;> decide +kernel
  have time := decimal_length_le_word timestamp
  simp only [json, Json.variant, Json.object_length, List.map_cons, List.map_nil, List.sum_cons, List.sum_nil,
    List.length_cons, List.length_nil, names, Json.number, constants, nodeLength, keyLength, challengeLength,
    signatureLength]
  omega

end NetworkMessage

namespace Network

variable {now now' : SystemTime} {wallet : Wallet} {listenAddress : Text} {randomBytes : FixedBytes 32}

omit [Crypto] in
theorem json_ne_nil (message : NetworkMessage) : 1 ≤ message.json.length := by
  cases message <;> simp [NetworkMessage.json, Json.variant, Json.object, Json.string]

theorem createHandshake_sendable (short : listenAddress.length ≤ maxPeerAddressLength) :
    TcpTransport.Sendable (createHandshake now randomBytes wallet listenAddress) := by
  have length := NetworkMessage.handshake_length_le (NodeRuntime.currentTimestamp now)
    wallet.address_fixed wallet.publicKeyHex_fixed short (isFixedHex_hexEncode randomBytes)
    (wallet.sign_fixed (Wallet.nodeHandshakeMessage wallet.nodeId wallet.publicKeyHex listenAddress networkId
      networkProtocolVersion (NodeRuntime.currentTimestamp now) (hexEncode randomBytes.val)))
  have limit : 3000 ≤ maxNetworkMessageBytes := by decide
  exact ⟨json_ne_nil _, le_trans length limit⟩

theorem validateHandshake_handshake {nodeId publicKey networkId challenge signature : Text}
    {protocolVersion : UInt32} {timestamp : UInt64} :
    validateHandshake now (.handshake nodeId publicKey listenAddress networkId protocolVersion timestamp challenge
        signature) = true ↔
      (NetworkMessage.handshake nodeId publicKey listenAddress networkId protocolVersion timestamp challenge
        signature).json.length ≤ maxNetworkMessageBytes ∧
      handshakeFieldsValid now nodeId publicKey listenAddress networkId protocolVersion timestamp challenge
        signature = true := by
  unfold validateHandshake messageWithinLimits
  dsimp only
  split
  · rename_i long
    exact ⟨fun wrong => absurd wrong (by decide), fun within => absurd within.1 (Nat.not_le.mpr long)⟩
  · rename_i fits
    exact ⟨fun valid => ⟨Nat.not_lt.mp fits, valid⟩, And.right⟩

/-- A handshake is accepted when its sender has an address to be reached at and the two clocks agree. -/
theorem validateHandshake_createHandshake (lawful : SignaturesVerify) :
    validateHandshake now' (createHandshake now randomBytes wallet listenAddress) = true ↔
      listenAddress ≠ [] ∧ listenAddress.length ≤ maxPeerAddressLength ∧ Near now now' := by
  have node : isFixedHex wallet.nodeId addressHexLength = true := wallet.address_fixed
  have key : isFixedHex wallet.publicKeyHex addressHexLength = true := wallet.publicKeyHex_fixed
  have drawn : isFixedHex (hexEncode randomBytes.val) 64 = true := isFixedHex_hexEncode randomBytes
  have verified : Wallet.verifyNodeHandshake wallet.nodeId wallet.publicKeyHex listenAddress networkId
      networkProtocolVersion (NodeRuntime.currentTimestamp now) (hexEncode randomBytes.val)
      (wallet.signNodeHandshake listenAddress networkId networkProtocolVersion (NodeRuntime.currentTimestamp now)
        (hexEncode randomBytes.val)) = true := by
    simp only [Wallet.verifyNodeHandshake, wallet.addressFromPublicKey_publicKeyHex lawful, Wallet.nodeId,
      ne_eq, not_true_eq_false, if_false]
    exact wallet.verify_sign lawful _
  have fields : handshakeFieldsValid now' wallet.nodeId wallet.publicKeyHex listenAddress networkId
      networkProtocolVersion (NodeRuntime.currentTimestamp now) (hexEncode randomBytes.val)
      (wallet.signNodeHandshake listenAddress networkId networkProtocolVersion (NodeRuntime.currentTimestamp now)
        (hexEncode randomBytes.val)) = true ↔
      listenAddress ≠ [] ∧ listenAddress.length ≤ maxPeerAddressLength ∧ Near now now' := by
    simp only [handshakeFieldsValid, node, key, drawn, verified, beq_self_eq_true, Bool.true_and, Bool.and_true,
      Bool.and_eq_true, Bool.not_eq_true', decide_eq_true_eq, List.isEmpty_eq_false_iff, Near, and_assoc]
  rw [createHandshake, validateHandshake_handshake, fields]
  refine ⟨And.right, fun fit => ⟨?_, fit⟩⟩
  exact (@createHandshake_sendable _ now wallet listenAddress randomBytes fit.2.1).2

variable (now wallet) in
theorem createHandshakeAck_sendable (accepted : Bool) {challenge : Text} (drawn : isFixedHex challenge 64 = true) :
    TcpTransport.Sendable (createHandshakeAck now wallet accepted challenge) := by
  have length := NetworkMessage.handshakeAck_length_le (NodeRuntime.currentTimestamp now) accepted
    wallet.address_fixed wallet.publicKeyHex_fixed drawn
    (wallet.sign_fixed (Wallet.nodeHandshakeAckMessage wallet.nodeId wallet.publicKeyHex networkId
      networkProtocolVersion (NodeRuntime.currentTimestamp now) challenge accepted))
  have limit : 3000 ≤ maxNetworkMessageBytes := by decide
  exact ⟨json_ne_nil _, le_trans length limit⟩

/-- The answer to a handshake is good when it accepts, for the challenge that was drawn, and the
clocks agree. -/
theorem validateHandshakeAck_createHandshakeAck (lawful : SignaturesVerify) {accepted : Bool}
    {challenge expectedChallenge : Text} :
    validateHandshakeAck now' (createHandshakeAck now wallet accepted challenge) expectedChallenge = true ↔
      accepted = true ∧ challenge = expectedChallenge ∧ Near now now' := by
  have node : isFixedHex wallet.nodeId addressHexLength = true := wallet.address_fixed
  have verified : Wallet.verifyNodeHandshakeAck wallet.nodeId wallet.publicKeyHex networkId networkProtocolVersion
      (NodeRuntime.currentTimestamp now) challenge accepted
      (wallet.signNodeHandshakeAck networkId networkProtocolVersion (NodeRuntime.currentTimestamp now) challenge
        accepted) = true := by
    simp only [Wallet.verifyNodeHandshakeAck, wallet.addressFromPublicKey_publicKeyHex lawful, Wallet.nodeId,
      ne_eq, not_true_eq_false, if_false]
    exact wallet.verify_sign lawful _
  simp only [validateHandshakeAck, createHandshakeAck, handshakeAckFieldsValid, node, verified, beq_self_eq_true,
    Bool.and_true, Bool.and_eq_true, beq_iff_eq, Near, and_assoc]

end Network

namespace TcpTransport

variable {fromSlice : Bytes → Except String NetworkMessage} {connection : Connection} {env : ConnectEnvironment}
  {wallet p2pIdentity : Wallet} {listenAddress : Text} {now now' : SystemTime}

omit [Crypto] in
/-- A connection that was opened and whose writes arrive. -/
structure Usable (connection : Connection) : Prop where
  opening : connection.opening = .ok ()
  writes : ∀ n, connection.writes n = .ok ()
  fresh : connection.sent = []

variable (fromSlice) in
/-- Up to the answer of the peer. -/
theorem connectAuthenticated_first (usable : Usable connection)
    (sendable : Sendable (env.handshake wallet listenAddress)) :
    connectAuthenticated fromSlice env wallet listenAddress connection =
      (do
        let response ← read fromSlice
        Effect.lift (rejectIf (¬ Network.validateHandshakeAck env.validated response (hexEncode env.randomBytes.val))
          "Peer HandshakeAck validation failed") : Effect Connection Unit)
        { connection with sent := [env.handshake wallet listenAddress] } := by
  have opened : «open» connection = (.ok (), connection) := by
    simp only [«open», usable.opening]
  have written := send_of_sendable connection sendable (usable.writes connection.sent.length)
  rw [usable.fresh, List.nil_append] at written
  unfold connectAuthenticated
  rw [Effect.lift_bind_of_ok (show okOr (Network.handshakeChallenge (env.handshake wallet listenAddress)) _ =
    .ok (hexEncode env.randomBytes.val) from rfl),
    Effect.bind_of_ok opened, Effect.bind_of_ok written]

variable (wallet listenAddress) in
/-- The peer's good answer opens the connection. -/
theorem connectAuthenticated_answered (decodes : Decodes fromSlice) (usable : Usable connection)
    (sendable : Sendable (env.handshake wallet listenAddress)) {response : NetworkMessage} {rest : Bytes}
    (fits : Sendable response) (whole : connection.stream.flatten = frame response ++ rest)
    (valid : Network.validateHandshakeAck env.validated response (hexEncode env.randomBytes.val) = true) :
    ∃ tail, connectAuthenticated fromSlice env wallet listenAddress connection =
        (.ok (), { connection with stream := tail, sent := [env.handshake wallet listenAddress] }) ∧
      tail.flatten = rest := by
  let begun := { connection with sent := [env.handshake wallet listenAddress] }
  obtain ⟨tail, read, left⟩ := read_frame begun decodes fits whole
  refine ⟨tail, ?_, left⟩
  rw [connectAuthenticated_first fromSlice usable sendable, Effect.bind_of_ok read, valid]
  rfl

variable (wallet listenAddress) in
/-- After the peer's good answer the message is sent. -/
theorem sendAuthenticatedMessage_answered (decodes : Decodes fromSlice) (usable : Usable connection)
    (sendable : Sendable (env.handshake wallet listenAddress)) {response message : NetworkMessage} {rest : Bytes}
    (fits : Sendable response) (whole : connection.stream.flatten = frame response ++ rest)
    (valid : Network.validateHandshakeAck env.validated response (hexEncode env.randomBytes.val) = true)
    (told : Sendable message) :
    ∃ tail, sendAuthenticatedMessage fromSlice env wallet listenAddress message connection =
        (.ok (), { connection with stream := tail, sent := [env.handshake wallet listenAddress, message] }) ∧
      tail.flatten = rest := by
  obtain ⟨tail, connected, left⟩ := connectAuthenticated_answered wallet listenAddress decodes usable sendable
    fits whole valid
  have requested := send_of_sendable { connection with
    stream := tail, sent := [env.handshake wallet listenAddress] } told (usable.writes 1)
  refine ⟨tail, ?_, left⟩
  rw [sendAuthenticatedMessage, Effect.bind_of_ok connected, requested]
  rfl

variable (fromSlice) in
/-- The first message of a connection is the handshake. -/
theorem connectAuthenticated_sent (usable : Usable connection)
    (sendable : Sendable (env.handshake wallet listenAddress)) :
    (connectAuthenticated fromSlice env wallet listenAddress connection).2.sent =
      [env.handshake wallet listenAddress] := by
  rw [connectAuthenticated_first fromSlice usable sendable]
  obtain ⟨result, tail, run⟩ := read_cases fromSlice
    { connection with sent := [env.handshake wallet listenAddress] }
  cases result with
  | error fault => rw [Effect.bind_of_error run]
  | ok response =>
    rw [Effect.bind_of_ok run]
    rfl

variable (fromSlice) in
theorem sendAuthenticatedMessage_sent (usable : Usable connection)
    (sendable : Sendable (env.handshake wallet listenAddress)) (message : NetworkMessage) :
    ∃ more, (sendAuthenticatedMessage fromSlice env wallet listenAddress message connection).2.sent =
      env.handshake wallet listenAddress :: more := by
  have first := connectAuthenticated_sent fromSlice usable sendable
  unfold sendAuthenticatedMessage
  cases connected : connectAuthenticated fromSlice env wallet listenAddress connection with
  | mk result after =>
    rw [connected] at first
    cases result with
    | error fault =>
      rw [Effect.bind_of_error connected]
      exact ⟨[], first⟩
    | ok done =>
      rw [Effect.bind_of_ok connected]
      rcases send_cases after message with ⟨fault, failed⟩ | ⟨_, sent⟩
      · rw [failed]
        exact ⟨[], first⟩
      · rw [sent]
        exact ⟨[message], congrArg (· ++ [message]) first⟩

variable (p2pIdentity now') in
/-- The accepting side on the handshake of a peer that follows the protocol. -/
theorem acceptHandshake_accepts (lawful : SignaturesVerify) (decodes : Decodes fromSlice)
    (usable : Usable connection) (reachable : listenAddress ≠ []) (short : listenAddress.length ≤ maxPeerAddressLength)
    (near : Near env.created now) {rest : Bytes}
    (whole : connection.stream.flatten = frame (env.handshake wallet listenAddress) ++ rest) :
    ∃ tail, acceptHandshake fromSlice now now' p2pIdentity connection =
        (.ok (env.handshake wallet listenAddress), { connection with
          stream := tail
          sent := [Network.createHandshakeAck now' p2pIdentity true (hexEncode env.randomBytes.val)] }) ∧
      tail.flatten = rest := by
  have accepted : Network.validateHandshake now (env.handshake wallet listenAddress) = true :=
    (Network.validateHandshake_createHandshake lawful).mpr ⟨reachable, short, near⟩
  have sendable : Sendable (env.handshake wallet listenAddress) := Network.createHandshake_sendable short
  obtain ⟨tail, read, left⟩ := read_frame connection decodes sendable whole
  have answered : authenticateIncoming now now' p2pIdentity (env.handshake wallet listenAddress) =
      (Network.createHandshakeAck now' p2pIdentity true (hexEncode env.randomBytes.val), true) := by
    rw [authenticateIncoming, accepted]
    rfl
  have sent := send_of_sendable { connection with stream := tail } (Network.createHandshakeAck_sendable now'
    p2pIdentity true (isFixedHex_hexEncode env.randomBytes)) (usable.writes connection.sent.length)
  refine ⟨tail, ?_, left⟩
  unfold acceptHandshake
  rw [Effect.bind_of_ok read]
  simp only [answered]
  rw [Effect.bind_of_ok sent, usable.fresh]
  rfl

end TcpTransport

end

namespace Asking

def challenge : FixedBytes 32 :=
  fixedOfNat 32 0x0707070707070707070707070707070707070707070707070707070707070707

/-- The example values, with the signatures of two handshakes of a client and of a node's answer to them. -/
def table : CryptoTable :=
  { Submitting.table with
    signatures :=
      (Fixture.senderKey, Wallet.nodeHandshakeMessage (hexEncode Fixture.senderAddress.val)
        (hexEncode Fixture.senderKey.val) oneShotClientListenAddress networkId networkProtocolVersion 1754690100
        (hexEncode challenge.val),
        fixedOfNat 64 0xd9797215973fa894c64f990812c8200e965621bd7219dfcc07672472f21fe7fd40b7c9f54e4399999da9eb197daee3281fd9243cc67688a7869336f899cad702) ::
      (Fixture.senderKey, Wallet.nodeHandshakeMessage (hexEncode Fixture.senderAddress.val)
        (hexEncode Fixture.senderKey.val) (str "127.0.0.1:7001") networkId networkProtocolVersion 1754690100
        (hexEncode challenge.val),
        fixedOfNat 64 0xf8dd942338746fbefd9cb11ae4b14bea8c29666ee76ab1b6b67421f7ca7762fa757cb8f770fde973ad998d545308ac584ee1dd381f70b4ad37f01ac382380c03) ::
      (Fixture.validatorKey, Wallet.nodeHandshakeAckMessage (hexEncode Fixture.validatorAddress.val)
        (hexEncode Fixture.validatorKey.val) networkId networkProtocolVersion 1754690100
        (hexEncode challenge.val) true,
        fixedOfNat 64 0x75d9095ee8af1f21795fc1587dbe1f71537dcfd9ec71a3d98864226593db46aef923a36e4fe0c120316e4bf7a72b5b7ac7d5cf81dd889e64c6b95d6e63af0009) ::
      Submitting.table.signatures }

scoped instance crypto : Crypto :=
  table.crypto

def client : Wallet :=
  Wallet.fromSigningKey Submitting.senderSigningKey

def p2pIdentity : Wallet :=
  Wallet.fromSigningKey Fixture.validatorSigningKey

def env : ConnectEnvironment where
  created := Fixture.now
  randomBytes := challenge
  validated := Fixture.now

end Asking

end Kybernetes
