import Kybernetes.Base.Runs
import Kybernetes.Network

namespace Kybernetes

def maxNetworkPeers : Nat := 128
def maxNetworkMessageHistory : Nat := 10000
def maxNetworkInboxMessages : Nat := 10000

structure PeerIdentity where
  nodeId : Text
  listenAddress : Text
deriving DecidableEq, Repr

inductive PeerRegistrationOutcome
  | registered
  | alreadyRegistered
  | oneShotClient
  | nodeIdConflict
  | listenAddressConflict
  | peerLimitReached
  | invalidIdentity
deriving DecidableEq, Repr

structure Network where
  peers : List Text
  peerIdentities : List PeerIdentity
  messages : List NetworkMessage
  inbox : List NetworkMessage
deriving DecidableEq, Repr

/-- `remove(0)` from a list that is full, then `push`. -/
def pushWithin {α : Type} (limit : Nat) (queue : List α) (x : α) : List α :=
  (if limit ≤ queue.length then queue.tail else queue) ++ [x]

theorem pushWithin_length {α : Type} {limit : Nat} {queue : List α} {x : α} (positive : 0 < limit)
    (within : queue.length ≤ limit) : (pushWithin limit queue x).length ≤ limit := by
  unfold pushWithin
  by_cases full : limit ≤ queue.length
  · rw [if_pos full, List.length_append, List.length_tail, List.length_singleton]
    omega
  · rw [if_neg full, List.length_append, List.length_singleton]
    omega

namespace Network

def new : Network where
  peers := []
  peerIdentities := []
  messages := []
  inbox := []

def pushMessageHistory (self : Network) (message : NetworkMessage) : Network :=
  { self with messages := pushWithin maxNetworkMessageHistory self.messages message }

def pushInbox (self : Network) (message : NetworkMessage) : Network :=
  { self with inbox := pushWithin maxNetworkInboxMessages self.inbox message }

def addPeer (self : Network) (address : Text) : Bool × Network :=
  if address = [] ∨ address = oneShotClientListenAddress ∨ maxPeerAddressLength < address.length then (false, self)
  else if maxNetworkPeers ≤ self.peers.length then (false, self)
  else if self.peers.contains address then (false, self)
  else (true, { self with peers := self.peers ++ [address] })

def registerPeerIdentity (self : Network) (nodeId listenAddress : Text) : PeerRegistrationOutcome × Network :=
  if ¬ isFixedHex nodeId addressHexLength ∨ listenAddress = [] ∨ maxPeerAddressLength < listenAddress.length then
    (.invalidIdentity, self)
  else if listenAddress = oneShotClientListenAddress then (.oneShotClient, self)
  else if self.peerIdentities.any fun peer => peer.nodeId == nodeId && peer.listenAddress == listenAddress then
    (.alreadyRegistered, self)
  else if self.peerIdentities.any fun peer => peer.nodeId == nodeId then (.nodeIdConflict, self)
  else if self.peerIdentities.any fun peer => peer.listenAddress == listenAddress then
    (.listenAddressConflict, self)
  else if maxNetworkPeers ≤ self.peerIdentities.length ∨
      (¬ self.peers.contains listenAddress ∧ maxNetworkPeers ≤ self.peers.length) then
    (.peerLimitReached, self)
  else
    let peers := if ¬ self.peers.contains listenAddress then self.peers ++ [listenAddress] else self.peers
    (.registered, { self with peers, peerIdentities := self.peerIdentities ++ [{ nodeId, listenAddress }] })

def addPeerIdentity (self : Network) (nodeId listenAddress : Text) : Bool × Network :=
  let registration := self.registerPeerIdentity nodeId listenAddress
  (registration.1 == .registered, registration.2)

def fetchMessages (self : Network) : List NetworkMessage × Network :=
  (self.inbox, { self with inbox := [] })

section

variable [Crypto]

/-- `now` is the reading of the clock when the message is checked. -/
def broadcast (self : Network) (now : SystemTime) (message : NetworkMessage) : Network :=
  if ¬ messageWithinLimits now message then self
  else (self.pushMessageHistory message).pushInbox message

/-- `delivered` is what `broadcast_authenticated` counts, given the addresses of
the peers. -/
def broadcastToPeers (self : Network) (now : SystemTime) (delivered : List Text → Nat × Nat)
    (message : NetworkMessage) : (Nat × Nat) × Network :=
  if ¬ messageWithinLimits now message then ((0, 0), self)
  else (delivered self.peers, (self.pushMessageHistory message).pushInbox message)

def receive (self : Network) (now : SystemTime) (message : NetworkMessage) : Network :=
  if ¬ messageWithinLimits now message then self
  else
    match message with
    | .handshake nodeId _ listenAddress _ _ _ _ _ =>
      (self.registerPeerIdentity nodeId listenAddress).2.pushMessageHistory message
    | _ => self.pushMessageHistory message

end

/-- The calls that change a network, with what they are called with. -/
inductive Call
  | addPeer (address : Text)
  | registerPeerIdentity (nodeId listenAddress : Text)
  | addPeerIdentity (nodeId listenAddress : Text)
  | receive (now : SystemTime) (message : NetworkMessage)
  | broadcast (now : SystemTime) (message : NetworkMessage)
  | broadcastToPeers (now : SystemTime) (delivered : List Text → Nat × Nat) (message : NetworkMessage)
  | fetchMessages

def call [Crypto] (self : Network) : Call → Network
  | .addPeer address => (self.addPeer address).2
  | .registerPeerIdentity nodeId listenAddress => (self.registerPeerIdentity nodeId listenAddress).2
  | .addPeerIdentity nodeId listenAddress => (self.addPeerIdentity nodeId listenAddress).2
  | .receive now message => self.receive now message
  | .broadcast now message => self.broadcast now message
  | .broadcastToPeers now delivered message => (self.broadcastToPeers now delivered message).2
  | .fetchMessages => self.fetchMessages.2

/-- An address that may be listed as a peer. -/
structure Listable (address : Text) : Prop where
  nonempty : address ≠ []
  length : address.length ≤ maxPeerAddressLength
  notOneShot : address ≠ oneShotClientListenAddress

structure PeersWellFormed (peers : List Text) : Prop where
  count : peers.length ≤ maxNetworkPeers
  distinct : peers.Nodup
  listable : ∀ address ∈ peers, Listable address

structure IdentitiesWellFormed (peers : List Text) (identities : List PeerIdentity) : Prop where
  count : identities.length ≤ maxNetworkPeers
  nodeIds : (identities.map PeerIdentity.nodeId).Nodup
  listenAddresses : (identities.map PeerIdentity.listenAddress).Nodup
  listed : ∀ identity ∈ identities, identity.listenAddress ∈ peers

structure WellFormed (network : Network) : Prop where
  peers : PeersWellFormed network.peers
  identities : IdentitiesWellFormed network.peers network.peerIdentities
  messages : network.messages.length ≤ maxNetworkMessageHistory
  inbox : network.inbox.length ≤ maxNetworkInboxMessages

theorem PeersWellFormed.push {peers : List Text} {address : Text} (wellFormed : PeersWellFormed peers)
    (listable : Listable address) (fresh : address ∉ peers) (room : peers.length < maxNetworkPeers) :
    PeersWellFormed (peers ++ [address]) := by
  refine ⟨?_, ?_, fun other member => ?_⟩
  · rw [List.length_append, List.length_singleton]
    omega
  · rw [← List.concat_eq_append]
    exact List.Nodup.concat fresh wellFormed.distinct
  · rcases List.mem_append.mp member with old | added
    · exact wellFormed.listable other old
    · rw [List.mem_singleton.mp added]
      exact listable

theorem IdentitiesWellFormed.push {peers : List Text} {identities : List PeerIdentity} {identity : PeerIdentity}
    (wellFormed : IdentitiesWellFormed peers identities) (room : identities.length < maxNetworkPeers)
    (newNode : ∀ other ∈ identities, other.nodeId ≠ identity.nodeId)
    (newAddress : ∀ other ∈ identities, other.listenAddress ≠ identity.listenAddress)
    (listed : identity.listenAddress ∈ peers) : IdentitiesWellFormed peers (identities ++ [identity]) := by
  have unused : ∀ field : PeerIdentity → Text, (∀ other ∈ identities, field other ≠ field identity) →
      (identities.map field).Nodup → ((identities ++ [identity]).map field).Nodup := by
    intro field new distinct
    rw [List.map_append, List.map_singleton, ← List.concat_eq_append]
    refine List.Nodup.concat (fun member => ?_) distinct
    obtain ⟨other, inside, same⟩ := List.mem_map.mp member
    exact new other inside same
  refine ⟨?_, unused _ newNode wellFormed.nodeIds, unused _ newAddress wellFormed.listenAddresses,
    fun other member => ?_⟩
  · rw [List.length_append, List.length_singleton]
    omega
  · rcases List.mem_append.mp member with old | added
    · exact wellFormed.listed other old
    · rw [List.mem_singleton.mp added]
      exact listed

theorem IdentitiesWellFormed.mono {peers peers' : List Text} {identities : List PeerIdentity}
    (wellFormed : IdentitiesWellFormed peers identities) (sub : peers ⊆ peers') :
    IdentitiesWellFormed peers' identities :=
  ⟨wellFormed.count, wellFormed.nodeIds, wellFormed.listenAddresses,
    fun identity member => sub (wellFormed.listed identity member)⟩

/-- A call of `add_peer` that changes something, and what it checked. -/
theorem addPeer_cases (self : Network) (address : Text) :
    self.addPeer address = (false, self) ∨
      self.addPeer address = (true, { self with peers := self.peers ++ [address] }) ∧
        Listable address ∧ address ∉ self.peers ∧ self.peers.length < maxNetworkPeers := by
  unfold addPeer
  split
  · exact Or.inl rfl
  rename_i fits
  split
  · exact Or.inl rfl
  split
  · exact Or.inl rfl
  rename_i room fresh
  simp only [not_or, Nat.not_lt] at fits
  rw [List.contains_iff_mem] at fresh
  exact Or.inr ⟨rfl, ⟨fits.1, fits.2.2, fits.2.1⟩, fresh, Nat.not_le.mp room⟩

/-- A registration either changes nothing or has checked all that keeps the
two lists in order. -/
theorem registerPeerIdentity_cases (self : Network) (nodeId listenAddress : Text) :
    (∃ outcome, outcome ≠ .registered ∧ self.registerPeerIdentity nodeId listenAddress = (outcome, self)) ∨
      ∃ peers, self.registerPeerIdentity nodeId listenAddress =
          (.registered, { self with peers, peerIdentities := self.peerIdentities ++ [{ nodeId, listenAddress }] }) ∧
        (listenAddress ∈ self.peers ∧ peers = self.peers ∨
          listenAddress ∉ self.peers ∧ self.peers.length < maxNetworkPeers ∧
            peers = self.peers ++ [listenAddress]) ∧
        Listable listenAddress ∧ self.peerIdentities.length < maxNetworkPeers ∧
        (∀ other ∈ self.peerIdentities, other.nodeId ≠ nodeId) ∧
        ∀ other ∈ self.peerIdentities, other.listenAddress ≠ listenAddress := by
  unfold registerPeerIdentity
  -- the six refusals in their order; each passed check is kept for the lists
  split
  · exact Or.inl ⟨_, by decide, rfl⟩
  rename_i valid
  split
  · exact Or.inl ⟨_, by decide, rfl⟩
  rename_i notOneShot
  split
  · exact Or.inl ⟨_, by decide, rfl⟩
  split
  · exact Or.inl ⟨_, by decide, rfl⟩
  rename_i newNode
  split
  · exact Or.inl ⟨_, by decide, rfl⟩
  rename_i newAddress
  split
  · exact Or.inl ⟨_, by decide, rfl⟩
  rename_i room
  simp only [not_or, not_and, not_not, Nat.not_lt, Nat.not_le, List.contains_iff_mem] at valid room
  simp only [List.any_eq_true, beq_iff_eq, not_exists, not_and] at newNode newAddress
  refine Or.inr ⟨_, rfl, ?_, ⟨valid.2.1, valid.2.2, notOneShot⟩, room.1, newNode, newAddress⟩
  simp only [List.contains_iff_mem]
  by_cases listed : listenAddress ∈ self.peers
  · exact Or.inl ⟨listed, if_neg (not_not.mpr listed)⟩
  · exact Or.inr ⟨listed, room.2 listed, if_pos listed⟩

theorem addPeer_wellFormed {self : Network} (wellFormed : self.WellFormed) (address : Text) :
    (self.addPeer address).2.WellFormed := by
  obtain ⟨peers, identities, messages, inbox⟩ := wellFormed
  rcases self.addPeer_cases address with same | ⟨added, listable, fresh, room⟩
  · rw [same]
    exact ⟨peers, identities, messages, inbox⟩
  · rw [added]
    exact ⟨peers.push listable fresh room, identities.mono (List.subset_append_left _ _), messages, inbox⟩

theorem registerPeerIdentity_wellFormed {self : Network} (wellFormed : self.WellFormed)
    (nodeId listenAddress : Text) : (self.registerPeerIdentity nodeId listenAddress).2.WellFormed := by
  rcases self.registerPeerIdentity_cases nodeId listenAddress with
    ⟨_, _, same⟩ | ⟨_, registered, choice, listable, room, newNode, newAddress⟩
  · rw [same]
    exact wellFormed
  obtain ⟨peers, identities, messages, inbox⟩ := wellFormed
  rw [registered]
  rcases choice with ⟨listed, rfl⟩ | ⟨fresh, space, rfl⟩
  · exact ⟨peers, identities.push room newNode newAddress listed, messages, inbox⟩
  · have listed : listenAddress ∈ self.peers ++ [listenAddress] := by simp
    have known := identities.mono (List.subset_append_left _ [listenAddress])
    exact ⟨peers.push listable fresh space, known.push room newNode newAddress listed, messages, inbox⟩

theorem pushMessageHistory_wellFormed {self : Network} (wellFormed : self.WellFormed) (message : NetworkMessage) :
    (self.pushMessageHistory message).WellFormed :=
  ⟨wellFormed.peers, wellFormed.identities, pushWithin_length (by decide) wellFormed.messages, wellFormed.inbox⟩

theorem pushInbox_wellFormed {self : Network} (wellFormed : self.WellFormed) (message : NetworkMessage) :
    (self.pushInbox message).WellFormed :=
  ⟨wellFormed.peers, wellFormed.identities, wellFormed.messages, pushWithin_length (by decide) wellFormed.inbox⟩

theorem new_wellFormed : new.WellFormed := by
  refine ⟨⟨Nat.zero_le _, List.nodup_nil, ?_⟩, ⟨Nat.zero_le _, List.nodup_nil, List.nodup_nil, ?_⟩, Nat.zero_le _,
    Nat.zero_le _⟩
  · intro address member
    exact absurd member List.not_mem_nil
  · intro identity member
    exact absurd member List.not_mem_nil

variable [Crypto]

/-- What a received message does to the registry is at most a registration. -/
theorem receive_cases (self : Network) (now : SystemTime) (message : NetworkMessage) :
    self.receive now message = self ∨ self.receive now message = self.pushMessageHistory message ∨
      ∃ nodeId listenAddress, self.receive now message =
        (self.registerPeerIdentity nodeId listenAddress).2.pushMessageHistory message := by
  unfold receive
  split
  · exact Or.inl rfl
  cases message with
  | handshake nodeId publicKey listenAddress => exact Or.inr (Or.inr ⟨nodeId, listenAddress, rfl⟩)
  | _ => exact Or.inr (Or.inl rfl)

theorem call_wellFormed {self : Network} (wellFormed : self.WellFormed) (made : Call) :
    (self.call made).WellFormed := by
  have pushed : ∀ message, ((self.pushMessageHistory message).pushInbox message).WellFormed :=
    fun message => pushInbox_wellFormed (pushMessageHistory_wellFormed wellFormed message) message
  cases made with
  | addPeer address => exact addPeer_wellFormed wellFormed address
  | registerPeerIdentity nodeId listenAddress =>
    exact registerPeerIdentity_wellFormed wellFormed nodeId listenAddress
  | addPeerIdentity nodeId listenAddress => exact registerPeerIdentity_wellFormed wellFormed nodeId listenAddress
  | receive now message =>
    rcases self.receive_cases now message with same | recorded | ⟨nodeId, listenAddress, registered⟩
    · rw [call, same]
      exact wellFormed
    · rw [call, recorded]
      exact pushMessageHistory_wellFormed wellFormed message
    · rw [call, registered]
      exact pushMessageHistory_wellFormed (registerPeerIdentity_wellFormed wellFormed nodeId listenAddress) message
  | broadcast now message =>
    rw [call, broadcast]
    split
    · exact wellFormed
    · exact pushed message
  | broadcastToPeers now delivered message =>
    rw [call, broadcastToPeers]
    split
    · exact wellFormed
    · exact pushed message
  | fetchMessages => exact ⟨wellFormed.peers, wellFormed.identities, wellFormed.messages, Nat.zero_le _⟩

/-- Whatever calls were made, the lists of a network are in order, and a
registration that is not made leaves no trace in them, by itself or as a part
of receiving a handshake. -/
theorem registry_invariant (calls : List Call) :
    (runFrom call new calls).WellFormed ∧
      ∀ nodeId listenAddress,
        ((runFrom call new calls).registerPeerIdentity nodeId listenAddress).1 ≠ .registered →
        ((runFrom call new calls).registerPeerIdentity nodeId listenAddress).2 = runFrom call new calls ∧
          ∀ now publicKey networkId protocolVersion timestamp challenge signature,
            let received := (runFrom call new calls).receive now
              (.handshake nodeId publicKey listenAddress networkId protocolVersion timestamp challenge signature)
            received.peers = (runFrom call new calls).peers ∧
              received.peerIdentities = (runFrom call new calls).peerIdentities := by
  refine ⟨runFrom_invariant WellFormed (fun _ made inv => call_wellFormed inv made) new_wellFormed calls, ?_⟩
  generalize runFrom call new calls = network
  intro nodeId listenAddress refused
  have unchanged : (network.registerPeerIdentity nodeId listenAddress).2 = network := by
    rcases network.registerPeerIdentity_cases nodeId listenAddress with ⟨_, _, same⟩ | ⟨_, registered, _⟩
    · rw [same]
    · rw [registered] at refused
      exact absurd rfl refused
  refine ⟨unchanged, fun now publicKey networkId protocolVersion timestamp challenge signature => ?_⟩
  simp only [receive, unchanged]
  split
  · exact ⟨rfl, rfl⟩
  · exact ⟨rfl, rfl⟩

end Network

end Kybernetes
