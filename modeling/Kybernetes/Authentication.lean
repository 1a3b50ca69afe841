import Kybernetes.Base.Runs
import Kybernetes.Connections
import Kybernetes.PeerRegistry
import Kybernetes.SignedPayloads

namespace Kybernetes

section

variable [Crypto] {ι : Type}

/-- A connection that a node opens: what it draws and reads for it, and the address it gives. -/
structure Dial (ι : Type) where
  node : ι
  env : ConnectEnvironment
  listenAddress : Text

/-- A handshake that a node has accepted, with the clock when it was checked and when it was answered. -/
structure Acceptance (ι : Type) where
  node : ι
  checked : SystemTime
  answered : SystemTime
  handshake : NetworkMessage

/-- A connection whose answer the connecting node has taken for good. -/
structure Establishment (ι : Type) where
  dial : Dial ι
  answer : NetworkMessage

/-- Nodes that follow the protocol, with what each of them has signed and done. Everybody else only
appears in the messages that arrive. -/
structure PeerWorld (ι : Type) where
  networks : ι → Network
  signed : List (ι × SignedPayload)
  dials : List (Dial ι)
  acceptances : List (Acceptance ι)
  establishments : List (Establishment ι)

/-- What a node does. The messages that arrive can be any, also ones that were sent to another node
or never sent by one. -/
inductive PeerEvent (ι : Type)
  | dial (dial : Dial ι)
  | accept (node : ι) (now now' : SystemTime) (message : NetworkMessage)
  | answer (dial : Nat) (message : NetworkMessage)
  | receive (node : ι) (now : SystemTime) (message : NetworkMessage)
  | signTransaction (node : ι) (transaction : Transaction)
  | signBlock (node : ι) (block : Block)

namespace Dial

/-- What is signed for the handshake of a connection. -/
def payload (wallet : ι → Wallet) (dial : Dial ι) : SignedPayload :=
  .handshake (wallet dial.node).nodeId (wallet dial.node).publicKeyHex dial.listenAddress
    (NodeRuntime.currentTimestamp dial.env.created) (hexEncode dial.env.randomBytes.val)

/-- The handshake of a connection, under any signature of it. -/
def announcement (wallet : ι → Wallet) (dial : Dial ι) (signature : Text) : NetworkMessage :=
  .handshake (wallet dial.node).nodeId (wallet dial.node).publicKeyHex dial.listenAddress networkId
    networkProtocolVersion (NodeRuntime.currentTimestamp dial.env.created) (hexEncode dial.env.randomBytes.val)
    signature

/-- The handshake that a node sends is its announcement under the signature of the payload. -/
theorem handshake_eq (wallet : ι → Wallet) (dial : Dial ι) :
    dial.env.handshake (wallet dial.node) dial.listenAddress =
      dial.announcement wallet ((wallet dial.node).sign (dial.payload wallet).bytes) :=
  rfl

end Dial

omit [Crypto] in
/-- The node that a message of a handshake names as its sender. -/
def senderId : NetworkMessage → Option Text
  | .handshake nodeId _ _ _ _ _ _ _ => some nodeId
  | .handshakeAck nodeId _ _ _ _ _ _ _ => some nodeId
  | _ => none

namespace PeerEvent

omit [Crypto] in
def delivered : PeerEvent ι → Option NetworkMessage
  | .accept _ _ _ message => some message
  | .answer _ message => some message
  | .receive _ _ message => some message
  | _ => none

end PeerEvent

namespace PeerWorld

omit [Crypto] in
/-- Nodes that were started with some peers. -/
def start (peers : ι → List Text) : PeerWorld ι where
  networks node := { Network.new with peers := peers node }
  signed := []
  dials := []
  acceptances := []
  establishments := []

/-- `authenticate_incoming` signs its answer also when it refuses the peer. -/
def accept (wallet : ι → Wallet) (self : PeerWorld ι) (node : ι) (now now' : SystemTime)
    (message : NetworkMessage) : PeerWorld ι :=
  let accepted := (TcpTransport.authenticateIncoming now now' (wallet node) message).2
  let payload : SignedPayload := .handshakeAck (wallet node).nodeId (wallet node).publicKeyHex
    (NodeRuntime.currentTimestamp now') ((Network.handshakeChallenge message).getD []) accepted
  { self with
    signed := self.signed ++ [(node, payload)]
    acceptances :=
      if accepted then self.acceptances ++ [{ node, checked := now, answered := now', handshake := message }]
      else self.acceptances }

/-- What `connect_authenticated` makes of an answer. -/
def answer (self : PeerWorld ι) (dial : Nat) (message : NetworkMessage) : PeerWorld ι :=
  match self.dials[dial]? with
  | none => self
  | some dial =>
    if Network.validateHandshakeAck dial.env.validated message (hexEncode dial.env.randomBytes.val) then
      { self with establishments := self.establishments ++ [{ dial, answer := message }] }
    else self

def step [DecidableEq ι] (wallet : ι → Wallet) (self : PeerWorld ι) : PeerEvent ι → PeerWorld ι
  | .dial dial =>
    { self with signed := self.signed ++ [(dial.node, dial.payload wallet)], dials := self.dials ++ [dial] }
  | .accept node now now' message => self.accept wallet node now now' message
  | .answer dial message => self.answer dial message
  | .receive node now message =>
    { self with networks := Function.update self.networks node ((self.networks node).receive now message) }
  | .signTransaction node transaction => { self with signed := self.signed ++ [(node, .transaction transaction)] }
  | .signBlock node block => { self with signed := self.signed ++ [(node, .blockHash block.calculateHash)] }

/-- Nobody has made a signature that verifies under the id of a node but the node itself. -/
def Unforged (wallet : ι → Wallet) (self : PeerWorld ι) : NetworkMessage → Prop
  | .handshake nodeId publicKey listenAddress networkId protocolVersion timestamp challenge signature =>
    (∃ node, (wallet node).nodeId = nodeId) →
    Wallet.verifyNodeHandshake nodeId publicKey listenAddress networkId protocolVersion timestamp challenge
      signature = true →
    ∃ entry ∈ self.signed, (wallet entry.1).nodeId = nodeId ∧ entry.2.bytes = Wallet.nodeHandshakeMessage nodeId
      publicKey listenAddress networkId protocolVersion timestamp challenge
  | .handshakeAck nodeId publicKey networkId protocolVersion timestamp challenge accepted signature =>
    (∃ node, (wallet node).nodeId = nodeId) →
    Wallet.verifyNodeHandshakeAck nodeId publicKey networkId protocolVersion timestamp challenge accepted
      signature = true →
    ∃ entry ∈ self.signed, (wallet entry.1).nodeId = nodeId ∧ entry.2.bytes = Wallet.nodeHandshakeAckMessage nodeId
      publicKey networkId protocolVersion timestamp challenge accepted
  | _ => True

/-- A run in which no delivered message carries a forged signature. -/
def NoForgery [DecidableEq ι] (wallet : ι → Wallet) (start : PeerWorld ι) (events : List (PeerEvent ι)) : Prop :=
  Along (step wallet) (fun world event => ∀ message ∈ event.delivered, world.Unforged wallet message) start events

/-- The message is the handshake of a connection that a node has opened. -/
def Announced (wallet : ι → Wallet) (dials : List (Dial ι)) (message : NetworkMessage) : Prop :=
  ∃ dial ∈ dials, ∃ signature, message = dial.announcement wallet signature

/-- The node has accepted a handshake with the challenge, and answered at the time. -/
def Answered (wallet : ι → Wallet) (acceptances : List (Acceptance ι)) (nodeId : Text) (timestamp : UInt64)
    (challenge : Text) : Prop :=
  ∃ acceptance ∈ acceptances, (wallet acceptance.node).nodeId = nodeId ∧
    timestamp = NodeRuntime.currentTimestamp acceptance.answered ∧
    Network.handshakeChallenge acceptance.handshake = some challenge

/-- Why a node has signed something. -/
def Origin (wallet : ι → Wallet) (self : PeerWorld ι) (node : ι) : SignedPayload → Prop
  | .transaction _ => True
  | .blockHash hash => ∃ digest : FixedBytes 32, hash = hexEncode digest.val
  | .handshake nodeId publicKey listenAddress timestamp challenge =>
    ∃ dial ∈ self.dials, .handshake nodeId publicKey listenAddress timestamp challenge = dial.payload wallet
  | .handshakeAck nodeId publicKey timestamp challenge accepted =>
    nodeId = (wallet node).nodeId ∧ publicKey = (wallet node).publicKeyHex ∧
      (accepted = true → Answered wallet self.acceptances nodeId timestamp challenge)

/-- What the nodes can rely on. -/
structure Authentic (wallet : ι → Wallet) (world : PeerWorld ι) : Prop where
  signed : ∀ entry ∈ world.signed, world.Origin wallet entry.1 entry.2
  accepted : ∀ acceptance ∈ world.acceptances,
    Network.validateHandshake acceptance.checked acceptance.handshake = true ∧
      ((∃ node, senderId acceptance.handshake = some (wallet node).nodeId) →
        Announced wallet world.dials acceptance.handshake)
  established : ∀ establishment ∈ world.establishments, establishment.dial ∈ world.dials ∧
    ∀ node, senderId establishment.answer = some (wallet node).nodeId →
      ∃ timestamp, Network.handshakeTimestampValid establishment.dial.env.validated timestamp = true ∧
        Answered wallet world.acceptances (wallet node).nodeId timestamp
          (hexEncode establishment.dial.env.randomBytes.val)
  registered : ∀ node, ∀ peer ∈ (world.networks node).peerIdentities,
    (∃ other, (wallet other).nodeId = peer.nodeId) →
      ∃ dial ∈ world.dials, (wallet dial.node).nodeId = peer.nodeId ∧ dial.listenAddress = peer.listenAddress

/-! ### What a signature says -/

section Signatures

variable {wallet : ι → Wallet} {world : PeerWorld ι}

/-- A signed handshake is one that a node has made for a connection. -/
theorem announced_of_signed (origins : ∀ entry ∈ world.signed, world.Origin wallet entry.1 entry.2)
    {nodeId publicKey listenAddress challenge : Text} {timestamp : UInt64} (signature : Text)
    (node : isFixedHex nodeId 64 = true) (key : isFixedHex publicKey 64 = true)
    (drawn : isFixedHex challenge 64 = true) {entry : ι × SignedPayload} (member : entry ∈ world.signed)
    (same : entry.2.bytes = Wallet.nodeHandshakeMessage nodeId publicKey listenAddress networkId
      networkProtocolVersion timestamp challenge) :
    Announced wallet world.dials (.handshake nodeId publicKey listenAddress networkId networkProtocolVersion
      timestamp challenge signature) := by
  obtain ⟨signer, payload⟩ := entry
  have origin : world.Origin wallet signer payload := origins _ member
  change payload.bytes = (SignedPayload.handshake nodeId publicKey listenAddress timestamp challenge).bytes at same
  cases payload with
  | transaction | handshakeAck =>
    exact absurd same (SignedPayload.bytes_ne_of_headers (by simp only [SignedPayload.header]; decide))
  | blockHash hash =>
    obtain ⟨digest, rfl⟩ := origin
    exact absurd same (SignedPayload.blockHash_bytes_ne rfl)
  | handshake =>
    obtain ⟨dial, opened, made⟩ := origin
    cases made
    have lengths := fun {text text' : Text} (fixed : isFixedHex text 64 = true) (fixed' : isFixedHex text' 64 = true) =>
      (isFixedHex_length fixed).trans (isFixedHex_length fixed').symm
    obtain ⟨rfl, rfl, rfl, rfl, rfl⟩ := nodeHandshakeMessage_inj
      (lengths (wallet dial.node).address_fixed node) (lengths (wallet dial.node).publicKeyHex_fixed key)
      (lengths (isFixedHex_hexEncode dial.env.randomBytes) drawn) same
    exact ⟨dial, opened, signature, rfl⟩

/-- A signed answer that accepts is one that a node has given. -/
theorem answered_of_signed (origins : ∀ entry ∈ world.signed, world.Origin wallet entry.1 entry.2)
    {nodeId publicKey challenge : Text} {timestamp : UInt64}
    (node : isFixedHex nodeId 64 = true) (key : publicKey.length = 64) {entry : ι × SignedPayload}
    (member : entry ∈ world.signed)
    (same : entry.2.bytes = Wallet.nodeHandshakeAckMessage nodeId publicKey networkId networkProtocolVersion
      timestamp challenge true) :
    Answered wallet world.acceptances nodeId timestamp challenge := by
  obtain ⟨signer, payload⟩ := entry
  have origin : world.Origin wallet signer payload := origins _ member
  change payload.bytes = (SignedPayload.handshakeAck nodeId publicKey timestamp challenge true).bytes at same
  cases payload with
  | transaction | handshake =>
    exact absurd same (SignedPayload.bytes_ne_of_headers (by simp only [SignedPayload.header]; decide))
  | blockHash hash =>
    obtain ⟨digest, rfl⟩ := origin
    exact absurd same (SignedPayload.blockHash_bytes_ne rfl)
  | handshakeAck =>
    obtain ⟨rfl, rfl, answered⟩ := origin
    have keys : (wallet signer).publicKeyHex.length = publicKey.length :=
      (isFixedHex_length (wallet signer).publicKeyHex_fixed).trans key.symm
    obtain ⟨rfl, rfl, rfl, rfl, rfl⟩ := nodeHandshakeAckMessage_inj
      ((isFixedHex_length (wallet signer).address_fixed).trans (isFixedHex_length node).symm) keys same
    exact answered rfl

end Signatures

/-! ### What a node has checked of a message -/

/-- A handshake that passes the check and is not forged was made by the node that it names. -/
theorem Unforged.announced {wallet : ι → Wallet} {world : PeerWorld ι}
    (origins : ∀ entry ∈ world.signed, world.Origin wallet entry.1 entry.2) {message : NetworkMessage}
    (unforged : world.Unforged wallet message) {now : SystemTime}
    (valid : Network.validateHandshake now message = true) {node : ι}
    (names : senderId message = some (wallet node).nodeId) : Announced wallet world.dials message := by
  cases message with
  | handshake nodeId publicKey listenAddress networkId protocolVersion timestamp challenge signature =>
    have fields := (Network.validateHandshake_handshake.mp valid).2
    simp only [Network.handshakeFieldsValid, Bool.and_eq_true, beq_iff_eq] at fields
    obtain ⟨⟨⟨⟨⟨⟨⟨⟨fixed, key⟩, _⟩, _⟩, rfl⟩, rfl⟩, _⟩, drawn⟩, verified⟩ := fields
    obtain ⟨entry, member, _, same⟩ := unforged ⟨node, (Option.some.inj names).symm⟩ verified
    exact announced_of_signed origins signature fixed key drawn member same
  | _ => cases valid

/-- An answer that passes the check and is not forged was given by the node that it names. -/
theorem Unforged.answered {wallet : ι → Wallet} {world : PeerWorld ι}
    (origins : ∀ entry ∈ world.signed, world.Origin wallet entry.1 entry.2) {message : NetworkMessage}
    (unforged : world.Unforged wallet message) {now : SystemTime} {challenge : Text}
    (valid : Network.validateHandshakeAck now message challenge = true) {node : ι}
    (names : senderId message = some (wallet node).nodeId) :
    ∃ timestamp, Network.handshakeTimestampValid now timestamp = true ∧
      Answered wallet world.acceptances (wallet node).nodeId timestamp challenge := by
  cases message with
  | handshakeAck nodeId publicKey networkId protocolVersion timestamp challenge' accepted signature =>
    simp only [Network.validateHandshakeAck, Network.handshakeAckFieldsValid, Bool.and_eq_true, beq_iff_eq] at valid
    obtain ⟨⟨⟨⟨rfl, rfl⟩, ⟨fixed, rfl⟩, rfl⟩, near⟩, verified⟩ := valid
    have named : nodeId = (wallet node).nodeId := Option.some.inj names
    obtain ⟨entry, member, _, same⟩ := unforged ⟨node, named.symm⟩ verified
    have key : publicKey.length = 64 := by
      unfold Wallet.verifyNodeHandshakeAck at verified
      split at verified
      · cases verified
      · rename_i derived
        obtain ⟨bytes, decoded, _⟩ := Wallet.addressFromPublicKey_eq_some derived
        rw [hexDecode_length decoded, bytes.property]
    rw [← named]
    exact ⟨timestamp, near, answered_of_signed origins fixed key member same⟩
  | _ => cases valid

/-! ### A step keeps it -/

section Steps

variable {wallet : ι → Wallet} {world world' : PeerWorld ι}

theorem Announced.mono {dials dials' : List (Dial ι)} {message : NetworkMessage} (grown : dials ⊆ dials')
    (announced : Announced wallet dials message) : Announced wallet dials' message := by
  obtain ⟨dial, opened, signature, made⟩ := announced
  exact ⟨dial, grown opened, signature, made⟩

theorem Answered.mono {acceptances acceptances' : List (Acceptance ι)} {nodeId challenge : Text} {timestamp : UInt64}
    (grown : acceptances ⊆ acceptances') (answered : Answered wallet acceptances nodeId timestamp challenge) :
    Answered wallet acceptances' nodeId timestamp challenge := by
  obtain ⟨acceptance, member, rest⟩ := answered
  exact ⟨acceptance, grown member, rest⟩

theorem Origin.mono {node : ι} {payload : SignedPayload} (dials : world.dials ⊆ world'.dials)
    (acceptances : world.acceptances ⊆ world'.acceptances) (origin : world.Origin wallet node payload) :
    world'.Origin wallet node payload := by
  cases payload with
  | transaction | blockHash => exact origin
  | handshake =>
    obtain ⟨dial, opened, made⟩ := origin
    exact ⟨dial, dials opened, made⟩
  | handshakeAck => exact ⟨origin.1, origin.2.1, fun accepted => (origin.2.2 accepted).mono acceptances⟩

/-- A step that signs one thing more, for a reason, and keeps what is recorded. -/
theorem Authentic.sign (authentic : world.Authentic wallet) {node : ι} {payload : SignedPayload}
    (signed : world'.signed = world.signed ++ [(node, payload)]) (dials : world.dials ⊆ world'.dials)
    (acceptances : world.acceptances ⊆ world'.acceptances) (origin : world'.Origin wallet node payload) :
    ∀ entry ∈ world'.signed, world'.Origin wallet entry.1 entry.2 := by
  intro entry member
  rw [signed, List.mem_append, List.mem_singleton] at member
  rcases member with old | rfl
  · exact (authentic.signed entry old).mono dials acceptances
  · exact origin

/-- A node that has a message checked and recorded adds an identity at most, and one that the message
announces. -/
theorem receive_identities (network : Network) (now : SystemTime) (message : NetworkMessage) {peer : PeerIdentity}
    (member : peer ∈ (network.receive now message).peerIdentities) :
    peer ∈ network.peerIdentities ∨ Network.validateHandshake now message = true ∧
      senderId message = some peer.nodeId ∧ ∀ dial : Dial ι, ∀ signature,
        message = dial.announcement wallet signature → dial.listenAddress = peer.listenAddress := by
  unfold Network.receive at member
  split at member
  · exact Or.inl member
  rename_i within
  cases message with
  | handshake nodeId publicKey listenAddress networkId protocolVersion timestamp challenge signature =>
    change peer ∈ (network.registerPeerIdentity nodeId listenAddress).2.peerIdentities at member
    rcases network.registerPeerIdentity_cases nodeId listenAddress with ⟨_, _, same⟩ | ⟨_, registered, _⟩
    · rw [same] at member
      exact Or.inl member
    · rw [registered] at member
      rcases List.mem_append.mp member with old | added
      · exact Or.inl old
      · cases List.mem_singleton.mp added
        refine Or.inr ⟨not_not.mp within, rfl, fun dial signature made => ?_⟩
        cases made
        rfl
  | _ => exact Or.inl member

/-- A node opens a connection and signs its handshake. -/
theorem Authentic.connect [DecidableEq ι] (authentic : world.Authentic wallet) (dial : Dial ι) :
    (world.step wallet (.dial dial)).Authentic wallet := by
  have grown : world.dials ⊆ world.dials ++ [dial] := List.subset_append_left _ _
  refine ⟨authentic.sign rfl grown (List.Subset.refl _) ⟨dial, by simp [PeerWorld.step], rfl⟩, ?_, ?_, ?_⟩
  · intro acceptance member
    obtain ⟨valid, announced⟩ := authentic.accepted acceptance member
    exact ⟨valid, fun named => (announced named).mono grown⟩
  · intro establishment member
    obtain ⟨opened, answered⟩ := authentic.established establishment member
    exact ⟨grown opened, answered⟩
  · intro node peer member named
    obtain ⟨earlier, opened, rest⟩ := authentic.registered node peer member named
    exact ⟨earlier, grown opened, rest⟩

/-- A node checks a first message and signs its answer. -/
theorem Authentic.accept (authentic : world.Authentic wallet) (node : ι) (now now' : SystemTime)
    {message : NetworkMessage} (unforged : world.Unforged wallet message) :
    (world.accept wallet node now now' message).Authentic wallet := by
  have grown : world.acceptances ⊆ (world.accept wallet node now now' message).acceptances := by
    simp only [PeerWorld.accept]
    split
    · exact List.subset_append_left _ _
    · exact List.Subset.refl _
  refine ⟨authentic.sign rfl (List.Subset.refl _) grown ⟨rfl, rfl, fun accepted => ?_⟩, ?_, ?_,
    authentic.registered⟩
  · have recorded : (world.accept wallet node now now' message).acceptances =
        world.acceptances ++ [{ node, checked := now, answered := now', handshake := message }] := if_pos accepted
    refine ⟨{ node, checked := now, answered := now', handshake := message }, ?_, rfl, rfl, ?_⟩
    · rw [recorded]
      exact List.mem_append_right _ (List.mem_singleton_self _)
    · cases message with
      | handshake => rfl
      | _ => cases accepted
  · intro acceptance member
    change acceptance ∈ (if _ then _ else _) at member
    split at member
    · rename_i valid
      rcases List.mem_append.mp member with old | added
      · exact authentic.accepted acceptance old
      · cases List.mem_singleton.mp added
        refine ⟨valid, ?_⟩
        rintro ⟨other, names⟩
        exact unforged.announced authentic.signed valid names
    · exact authentic.accepted acceptance member
  · intro establishment member
    obtain ⟨opened, answered⟩ := authentic.established establishment member
    refine ⟨opened, fun other names => ?_⟩
    obtain ⟨timestamp, near, acceptance⟩ := answered other names
    exact ⟨timestamp, near, acceptance.mono grown⟩

/-- The end that opened a connection checks the answer. -/
theorem Authentic.answer (authentic : world.Authentic wallet) (position : Nat) {message : NetworkMessage}
    (unforged : world.Unforged wallet message) : (world.answer position message).Authentic wallet := by
  simp only [PeerWorld.answer]
  split
  · exact authentic
  rename_i dial found
  split
  · rename_i valid
    refine ⟨authentic.signed, authentic.accepted, ?_, authentic.registered⟩
    intro establishment member
    rcases List.mem_append.mp member with old | added
    · exact authentic.established establishment old
    · cases List.mem_singleton.mp added
      exact ⟨List.mem_of_getElem? found, fun node names => unforged.answered authentic.signed valid names⟩
  · exact authentic

/-- A node records the identity that a message announces. -/
theorem Authentic.receive [DecidableEq ι] (authentic : world.Authentic wallet) (node : ι) (now : SystemTime)
    {message : NetworkMessage} (unforged : world.Unforged wallet message) :
    (world.step wallet (.receive node now message)).Authentic wallet := by
  refine ⟨authentic.signed, authentic.accepted, authentic.established, ?_⟩
  intro other peer member named
  by_cases here : other = node
  · subst here
    simp only [PeerWorld.step, Function.update_self] at member
    rcases receive_identities _ now message member with old | ⟨valid, sender, address⟩
    · exact authentic.registered other peer old named
    · obtain ⟨owner, id⟩ := named
      have announced := unforged.announced authentic.signed valid (id ▸ sender)
      obtain ⟨dial, opened, signature, made⟩ := announced
      refine ⟨dial, opened, ?_, address dial signature made⟩
      rw [made] at sender
      exact Option.some.inj sender
  · simp only [PeerWorld.step, Function.update_of_ne here] at member
    exact authentic.registered other peer member named

theorem Authentic.step [DecidableEq ι] (authentic : world.Authentic wallet) (event : PeerEvent ι)
    (unforged : ∀ message ∈ event.delivered, world.Unforged wallet message) :
    (world.step wallet event).Authentic wallet := by
  cases event with
  | dial dial => exact authentic.connect dial
  | accept node now now' message => exact authentic.accept node now now' (unforged message rfl)
  | answer position message => exact authentic.answer position (unforged message rfl)
  | receive node now message => exact authentic.receive node now (unforged message rfl)
  | signTransaction node transaction =>
    exact ⟨authentic.sign rfl (List.Subset.refl _) (List.Subset.refl _) trivial, authentic.accepted,
      authentic.established, authentic.registered⟩
  | signBlock node block =>
    exact ⟨authentic.sign rfl (List.Subset.refl _) (List.Subset.refl _) ⟨_, rfl⟩, authentic.accepted,
      authentic.established, authentic.registered⟩

end Steps

theorem start_authentic (wallet : ι → Wallet) (peers : ι → List Text) : (start peers).Authentic wallet := by
  refine ⟨?_, ?_, ?_, ?_⟩
  · intro entry member
    cases member
  · intro acceptance member
    cases member
  · intro establishment member
    cases member
  · intro node peer member
    cases member

section Runs

variable [DecidableEq ι] {wallet : ι → Wallet} {peers : ι → List Text} {events : List (PeerEvent ι)}

theorem NoForgery.authentic (unforged : NoForgery wallet (start peers) events) :
    (runFrom (step wallet) (start peers) events).Authentic wallet :=
  unforged.invariant (Authentic wallet) (fun _ event authentic genuine => authentic.step event genuine)
    (start_authentic wallet peers)

/-- Whatever messages an attacker delivers, to whom and in which order, as long as it forges no signature: a
handshake that is accepted in the name of a node is one that this node made, with this address and challenge and
at this time, and an identity that is registered for a node is one that it gave. -/
theorem handshakes_are_genuine (unforged : NoForgery wallet (start peers) events) :
    let world := runFrom (step wallet) (start peers) events
    (∀ acceptance ∈ world.acceptances, ∀ node, senderId acceptance.handshake = some (wallet node).nodeId →
      ∃ dial ∈ world.dials, (wallet dial.node).nodeId = (wallet node).nodeId ∧ Near dial.env.created acceptance.checked ∧
        ∃ signature, acceptance.handshake = dial.announcement wallet signature) ∧
    ∀ host, ∀ peer ∈ (world.networks host).peerIdentities, ∀ node, peer.nodeId = (wallet node).nodeId →
      ∃ dial ∈ world.dials, (wallet dial.node).nodeId = (wallet node).nodeId ∧ dial.listenAddress = peer.listenAddress := by
  intro world
  have authentic : world.Authentic wallet := unforged.authentic
  refine ⟨fun acceptance member node names => ?_, fun host peer member node names => ?_⟩
  · obtain ⟨valid, announced⟩ := authentic.accepted acceptance member
    obtain ⟨dial, opened, signature, made⟩ := announced ⟨node, names⟩
    rw [made] at valid names
    have fields := (Network.validateHandshake_handshake.mp valid).2
    simp only [Network.handshakeFieldsValid, Bool.and_eq_true] at fields
    exact ⟨dial, opened, Option.some.inj names, fields.1.1.2, signature, made⟩
  · obtain ⟨dial, opened, id, address⟩ := authentic.registered host peer member ⟨node, names.symm⟩
    exact ⟨dial, opened, id.trans names, address⟩

/-- A connection that is completed in the name of a node was answered by this node, within the tolerance of the
clocks, for a handshake with the challenge of the connection. Where no challenge was drawn twice, this handshake is
the one of the connection, or one in the name of nobody who follows the protocol. -/
theorem connections_are_answered (unforged : NoForgery wallet (start peers) events) :
    let world := runFrom (step wallet) (start peers) events
    ∀ establishment ∈ world.establishments, ∀ node, senderId establishment.answer = some (wallet node).nodeId →
      ∃ acceptance ∈ world.acceptances, (wallet acceptance.node).nodeId = (wallet node).nodeId ∧
        Near acceptance.answered establishment.dial.env.validated ∧
        Network.handshakeChallenge acceptance.handshake = some (hexEncode establishment.dial.env.randomBytes.val) ∧
        ((world.dials.map fun dial => dial.env.randomBytes).Nodup →
          (∃ other, senderId acceptance.handshake = some (wallet other).nodeId) →
          ∃ signature, acceptance.handshake = establishment.dial.announcement wallet signature) := by
  intro world establishment member node names
  have authentic : world.Authentic wallet := unforged.authentic
  obtain ⟨opened, answered⟩ := authentic.established establishment member
  obtain ⟨timestamp, near, acceptance, taken, id, rfl, challenge⟩ := answered node names
  refine ⟨acceptance, taken, id, near, challenge, fun fresh named => ?_⟩
  obtain ⟨dial, dialled, signature, made⟩ := (authentic.accepted acceptance taken).2 named
  rw [made] at challenge
  have drawn : dial.env.randomBytes = establishment.dial.env.randomBytes :=
    Subtype.ext (hexEncode_inj (Option.some.inj challenge))
  have same : dial = establishment.dial := List.inj_on_of_nodup_map fresh dialled opened drawn
  exact ⟨signature, same ▸ made⟩

end Runs

end PeerWorld

end

namespace Asking

/-- The client and the node of the example. -/
def wallet (isNode : Bool) : Wallet :=
  if isNode then p2pIdentity else client

def dial : Dial Bool where
  node := false
  env := env
  listenAddress := str "127.0.0.1:7001"

def handshake : NetworkMessage :=
  env.handshake client (str "127.0.0.1:7001")

def ack : NetworkMessage :=
  Network.createHandshakeAck Fixture.now p2pIdentity true (hexEncode challenge.val)

/-- A connection of the client to the node, and its handshake once more. -/
def meeting : List (PeerEvent Bool) :=
  [.dial dial, .accept true Fixture.now Fixture.now handshake, .receive true Fixture.now handshake, .answer 0 ack,
    .accept true Fixture.now Fixture.now handshake]

theorem meeting_unforged : PeerWorld.NoForgery wallet (PeerWorld.start fun _ => []) meeting := by
  have accepted : (TcpTransport.authenticateIncoming Fixture.now Fixture.now p2pIdentity handshake).2 = true := by
    decide +kernel
  have genuine : ∀ world : PeerWorld Bool, (false, dial.payload wallet) ∈ world.signed →
      ∀ message ∈ some handshake, world.Unforged wallet message := by
    intro world signed message same
    cases same
    exact fun _ _ => ⟨_, signed, rfl, rfl⟩
  have answered : ∀ world : PeerWorld Bool, (true, .handshakeAck p2pIdentity.nodeId p2pIdentity.publicKeyHex
      (NodeRuntime.currentTimestamp Fixture.now) (hexEncode challenge.val) true) ∈ world.signed →
      ∀ message ∈ some ack, world.Unforged wallet message := by
    intro world signed message same
    cases same
    exact fun _ _ => ⟨_, signed, rfl, rfl⟩
  have begun : ∀ world : PeerWorld Bool, (world.step wallet (.dial dial)).signed =
      world.signed ++ [(false, dial.payload wallet)] := fun _ => rfl
  have taken : ∀ world : PeerWorld Bool,
      (world.step wallet (.accept true Fixture.now Fixture.now handshake)).signed =
        world.signed ++ [(true, .handshakeAck p2pIdentity.nodeId p2pIdentity.publicKeyHex
          (NodeRuntime.currentTimestamp Fixture.now) (hexEncode challenge.val) true)] := by
    intro world
    simp only [PeerWorld.step, PeerWorld.accept]
    rw [show wallet true = p2pIdentity from rfl, accepted]
    rfl
  have kept : ∀ world : PeerWorld Bool, (world.step wallet (.receive true Fixture.now handshake)).signed =
      world.signed := fun _ => rfl
  have same : ∀ world : PeerWorld Bool, (world.step wallet (.answer 0 ack)).signed = world.signed := by
    intro world
    simp only [PeerWorld.step, PeerWorld.answer]
    split
    · rfl
    · split <;> rfl
  have nothing : ∀ world : PeerWorld Bool, ∀ message ∈ (none : Option NetworkMessage),
      world.Unforged wallet message := by
    intro world message member
    cases member
  refine ⟨nothing _, genuine _ ?_, genuine _ ?_, answered _ ?_, genuine _ ?_, trivial⟩
  · simp only [begun]
    simp
  · simp only [begun, taken]
    simp
  · simp only [begun, taken, kept]
    simp
  · simp only [same, begun, taken, kept]
    simp

end Asking

open PeerWorld in
open Asking in
/-- Both sides of the example know each other, and the second arrival of the handshake is no new acquaintance. -/
theorem Asking.meeting_is_genuine :
    let world := runFrom (step wallet) (start fun _ => []) meeting
    (world.acceptances.length, world.establishments.length, (world.networks true).peerIdentities.length) = (2, 1, 1) ∧
      (∀ acceptance ∈ world.acceptances, ∀ node, senderId acceptance.handshake = some (wallet node).nodeId →
        ∃ dial ∈ world.dials, (wallet dial.node).nodeId = (wallet node).nodeId ∧
          Near dial.env.created acceptance.checked ∧
          ∃ signature, acceptance.handshake = dial.announcement wallet signature) ∧
      ∀ host, ∀ peer ∈ (world.networks host).peerIdentities, ∀ node, peer.nodeId = (wallet node).nodeId →
        ∃ dial ∈ world.dials, (wallet dial.node).nodeId = (wallet node).nodeId ∧
          dial.listenAddress = peer.listenAddress :=
  ⟨by decide +kernel, handshakes_are_genuine meeting_unforged⟩

open PeerWorld in
open Asking in
theorem Asking.meeting_is_answered :
    let world := runFrom (step wallet) (start fun _ => []) meeting
    ∀ establishment ∈ world.establishments, ∀ node, senderId establishment.answer = some (wallet node).nodeId →
      ∃ acceptance ∈ world.acceptances, (wallet acceptance.node).nodeId = (wallet node).nodeId ∧
        Near acceptance.answered establishment.dial.env.validated ∧
        Network.handshakeChallenge acceptance.handshake = some (hexEncode establishment.dial.env.randomBytes.val) ∧
        ((world.dials.map fun dial => dial.env.randomBytes).Nodup →
          (∃ other, senderId acceptance.handshake = some (wallet other).nodeId) →
          ∃ signature, acceptance.handshake = establishment.dial.announcement wallet signature) :=
  connections_are_answered meeting_unforged

end Kybernetes
