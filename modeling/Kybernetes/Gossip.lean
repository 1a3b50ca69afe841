import Kybernetes.Acceptance
import Kybernetes.Base.Flooding
import Kybernetes.HonestPeer
import Kybernetes.Sessions

namespace Kybernetes

section

variable [Crypto]

/-- The messages that are to be broadcast among the actions, in order. -/
def ProcessOutcome.broadcasts (outcome : ProcessOutcome) : List NetworkMessage :=
  outcome.actions.filterMap fun action =>
    match action with
    | .broadcast message => some message
    | .reply _ => none

/-- Running nodes, the broadcasts that a node has still to begin, and the messages on their way to a
listen address. -/
structure GossipWorld (ν : Type) where
  hosts : ν → Host
  broadcasts : List (ν × NetworkMessage)
  deliveries : List (Text × NetworkMessage)

/-- What comes next: a message arrives and is processed, a broadcast takes the list of peers, or a node
notes the handshake of a connection. -/
inductive GossipEvent (ν : Type)
  | deliver (place : Nat) (received produced : Environment)
  | broadcast (place : Nat)
  | receive (node : ν) (now : SystemTime) (message : NetworkMessage)

omit [Crypto] in
/-- Where a message arrives, the clock and the disk of the node meet a condition. -/
def GossipEvent.Meets {ν : Type} (good : Environment → Prop) : GossipEvent ν → Prop
  | .deliver _ received _ => good received
  | _ => True

/-- What is broadcast after a message was processed. -/
def broadcastsOf : Result ProcessOutcome → List NetworkMessage
  | .ok outcome => outcome.broadcasts
  | .error _ => []

namespace GossipWorld

variable {ν : Type} [DecidableEq ν]

/-- A message arrives at a node. -/
def hear (self : GossipWorld ν) (node : ν) (received produced : Environment) (message : NetworkMessage) :
    GossipWorld ν :=
  let processed := (self.hosts node).process received produced message false
  { self with
    hosts := Function.update self.hosts node processed.2
    broadcasts := self.broadcasts ++ (broadcastsOf processed.1).map fun message => (node, message) }

/-- `locate` gives the node that listens at an address. A broadcast whose send fails has lost its message in the
source, and has here a delivery that never arrives. -/
def step (locate : Text → Option ν) (self : GossipWorld ν) : GossipEvent ν → GossipWorld ν
  | .deliver place received produced =>
    match self.deliveries[place]? with
    | none => self
    | some (address, message) =>
      let self := { self with deliveries := self.deliveries.eraseIdx place }
      match locate address with
      | none => self
      | some node => self.hear node received produced message
  | .broadcast place =>
    match self.broadcasts[place]? with
    | none => self
    | some (node, message) =>
      { self with
        broadcasts := self.broadcasts.eraseIdx place
        deliveries := self.deliveries ++ (self.hosts node).network.peers.map fun peer => (peer, message) }
  | .receive node now message =>
    { self with hosts := Function.update self.hosts node ((self.hosts node).receiveHandshake now message) }

/-- The event takes a broadcast or a delivery of the message. -/
def about (self : GossipWorld ν) (message : NetworkMessage) : GossipEvent ν → Bool
  | .deliver place _ _ => (self.deliveries[place]?.map Prod.snd) == some message
  | .broadcast place => (self.broadcasts[place]?.map Prod.snd) == some message
  | .receive .. => false

/-- How many events of a run take a broadcast or a delivery of the message. -/
def spent (locate : Text → Option ν) (message : NetworkMessage) : GossipWorld ν → List (GossipEvent ν) → Nat
  | _, [] => 0
  | self, event :: events =>
    (if self.about message event then 1 else 0) + spent locate message (self.step locate event) events

end GossipWorld

/-- A message that every node which is ready for it takes once and broadcasts, in the company of others that
change nothing about this. -/
structure Spreads (message : NetworkMessage) (Ready Done : NodeRuntime → Prop) (Other : NetworkMessage → Prop)
    (good : Environment → Prop) : Prop where
  hears : ∀ (host : Host) received produced, Ready host.runtime → good received →
    Done (host.process received produced message false).2.runtime ∧
      broadcastsOf (host.process received produced message false).1 = [message]
  ignores : ∀ (host : Host) received produced, Done host.runtime →
    Done (host.process received produced message false).2.runtime ∧
      broadcastsOf (host.process received produced message false).1 = []
  keepsReady : ∀ (host : Host) received produced other, Other other → Ready host.runtime →
    Ready (host.process received produced other false).2.runtime
  keepsDone : ∀ (host : Host) received produced other, Other other → Done host.runtime →
    Done (host.process received produced other false).2.runtime
  others : ∀ (host : Host) received produced other, Other other → Ready host.runtime ∨ Done host.runtime →
    ∀ next ∈ broadcastsOf (host.process received produced other false).1, Other next
  apart : ¬ Other message
  exclusive : ∀ runtime, Ready runtime → ¬ Done runtime

namespace GossipWorld

variable {ν : Type} [DecidableEq ν] {message : NetworkMessage} {Ready Done : NodeRuntime → Prop}
  {Other : NetworkMessage → Prop} {good : Environment → Prop} {locate : Text → Option ν}

/-- The nodes are ready for the message or have it, and nothing circulates that changes this. -/
structure Spreading (message : NetworkMessage) (Ready Done : NodeRuntime → Prop) (Other : NetworkMessage → Prop)
    (world : GossipWorld ν) : Prop where
  hosts : ∀ node, Ready (world.hosts node).runtime ∨ Done (world.hosts node).runtime
  networks : ∀ node, (world.hosts node).network.WellFormed
  broadcasts : ∀ entry ∈ world.broadcasts, entry.2 = message ∨ Other entry.2
  deliveries : ∀ entry ∈ world.deliveries, entry.2 = message ∨ Other entry.2

omit [Crypto] [DecidableEq ν] in
/-- The entries for a message, without it. -/
def entriesFor {α β : Type} (message : NetworkMessage) (f : α → β) (entries : List (α × NetworkMessage)) : List β :=
  (entries.filter fun entry => entry.2 = message).map fun entry => f entry.1

omit [Crypto] [DecidableEq ν] in
theorem entriesFor_append {α β : Type} (f : α → β) (entries more : List (α × NetworkMessage)) :
    entriesFor message f (entries ++ more) = entriesFor message f entries ++ entriesFor message f more := by
  simp only [entriesFor, List.filter_append, List.map_append]

omit [Crypto] [DecidableEq ν] in
theorem entriesFor_cons_self {α β : Type} (f : α → β) (a : α) (entries : List (α × NetworkMessage)) :
    entriesFor message f ((a, message) :: entries) = f a :: entriesFor message f entries := by
  simp only [entriesFor, decide_true, List.filter_cons_of_pos, List.map_cons]

omit [Crypto] [DecidableEq ν] in
theorem entriesFor_cons_ne {α β : Type} (f : α → β) (a : α) {other : NetworkMessage} (apart : other ≠ message)
    (entries : List (α × NetworkMessage)) :
    entriesFor message f ((a, other) :: entries) = entriesFor message f entries := by
  simp only [entriesFor, List.filter_cons, apart, decide_false, Bool.false_eq_true, if_false]

omit [Crypto] [DecidableEq ν] in
theorem entriesFor_eq_nil {α β : Type} {f : α → β} {entries : List (α × NetworkMessage)} :
    entriesFor message f entries = [] ↔ ∀ entry ∈ entries, entry.2 ≠ message := by
  simp only [entriesFor, List.map_eq_nil_iff, List.filter_eq_nil_iff, decide_eq_true_eq, ne_eq]

omit [Crypto] [DecidableEq ν] in
/-- A list of entries for one message has all of them or none. -/
theorem entriesFor_map {α β γ : Type} (f : α → β) (g : γ → α) (sent : NetworkMessage) (places : List γ) :
    entriesFor message f (places.map fun place => (g place, sent)) =
      if sent = message then places.map fun place => f (g place) else [] := by
  split
  · rename_i same
    subst same
    induction places with
    | nil => rfl
    | cons place places ih => rw [List.map_cons, entriesFor_cons_self, ih, List.map_cons]
  · rename_i apart
    rw [entriesFor_eq_nil]
    intro entry member
    obtain ⟨place, _, rfl⟩ := List.mem_map.mp member
    exact apart

/-- Where the message is. An address at which nobody listens has every message. -/
def flood (locate : Text → Option ν) (message : NetworkMessage) (Done : NodeRuntime → Prop)
    (world : GossipWorld ν) : Flood (Option ν) where
  informed := {place | ∀ node, place = some node → Done (world.hosts node).runtime}
  telling := entriesFor message some world.broadcasts
  told := entriesFor message locate world.deliveries

/-- Whom a node has among its peers. -/
def links (locate : Text → Option ν) (world : GossipWorld ν) : Option ν → Set (Option ν)
  | none => ∅
  | some node => {place | ∃ peer ∈ (world.hosts node).network.peers, locate peer = place}

omit [Crypto] [DecidableEq ν] in
/-- An entry of a list, what stands around it, and what is left without it. -/
theorem split_place {α : Type} {entries : List α} {place : Nat} {entry : α} (found : entries[place]? = some entry) :
    ∃ before after, entries = before ++ entry :: after ∧ entries.eraseIdx place = before ++ after := by
  obtain ⟨inside, rfl⟩ := List.getElem?_eq_some_iff.mp found
  refine ⟨entries.take place, entries.drop (place + 1), ?_, List.eraseIdx_eq_take_drop_succ ..⟩
  rw [← List.drop_eq_getElem_cons, List.take_append_drop]

/-- Listening to other nodes changes no network but for the identities and peers that handshakes add. -/
theorem process_network (host : Host) (received produced : Environment) (message : NetworkMessage) :
    (host.process received produced message false).2.network = host.network ∨
      ∃ now, (host.process received produced message false).2.network = host.network.receive now message := by
  cases message with
  | handshake | handshakeAck =>
    refine Or.inr ⟨received.clock 0, ?_⟩
    simp only [Host.process]
  | _ => exact Or.inl rfl

theorem receive_peers (network : Network) (now : SystemTime) (message : NetworkMessage) :
    network.peers ⊆ (network.receive now message).peers := by
  rcases network.receive_cases now message with same | recorded | ⟨nodeId, listenAddress, registered⟩
  · rw [same]
    exact List.Subset.refl _
  · rw [recorded]
    exact List.Subset.refl _
  · rw [registered]
    rcases network.registerPeerIdentity_cases nodeId listenAddress with ⟨_, _, same⟩ | ⟨_, added, choice, _⟩
    · rw [same]
      exact List.Subset.refl _
    · rw [added]
      rcases choice with ⟨_, rfl⟩ | ⟨_, _, rfl⟩
      · exact List.Subset.refl _
      · exact List.subset_append_left _ _

theorem receive_wellFormed {network : Network} (wellFormed : network.WellFormed) (now : SystemTime)
    (message : NetworkMessage) : (network.receive now message).WellFormed :=
  Network.call_wellFormed wellFormed (.receive now message)

/-! ### One event -/

section Steps

variable {world : GossipWorld ν}

omit [DecidableEq ν] in
theorem none_mem_informed : none ∈ (world.flood locate message Done).informed := by
  intro node wrong
  cases wrong

omit [DecidableEq ν] in
theorem some_mem_informed {node : ν} :
    some node ∈ (world.flood locate message Done).informed ↔ Done (world.hosts node).runtime := by
  constructor
  · intro member
    exact member node rfl
  · intro done other same
    cases same
    exact done

/-- A node that has a message processed changes nothing at the others. -/
theorem hear_hosts_ne {node other : ν} (elsewhere : other ≠ node) (received produced : Environment)
    (heard : NetworkMessage) : (world.hear node received produced heard).hosts other = world.hosts other :=
  Function.update_of_ne elsewhere ..

theorem hear_hosts_self (node : ν) (received produced : Environment) (heard : NetworkMessage) :
    (world.hear node received produced heard).hosts node =
      ((world.hosts node).process received produced heard false).2 :=
  Function.update_self ..

theorem Spreading.hear (spreads : Spreads message Ready Done Other good)
    (spreading : Spreading message Ready Done Other world) (node : ν) {received : Environment} (fine : good received)
    (produced : Environment) {heard : NetworkMessage} (allowed : heard = message ∨ Other heard) :
    Spreading message Ready Done Other (world.hear node received produced heard) := by
  refine ⟨fun other => ?_, fun other => ?_, fun entry member => ?_, spreading.deliveries⟩
  · by_cases here : other = node
    · subst here
      rw [hear_hosts_self]
      rcases allowed with rfl | allowed
      · rcases spreading.hosts other with ready | done
        · exact Or.inr (spreads.hears _ received produced ready fine).1
        · exact Or.inr (spreads.ignores _ received produced done).1
      · exact (spreading.hosts other).imp (spreads.keepsReady _ received produced heard allowed)
          (spreads.keepsDone _ received produced heard allowed)
    · rw [hear_hosts_ne here]
      exact spreading.hosts other
  · by_cases here : other = node
    · subst here
      rw [hear_hosts_self]
      rcases process_network (world.hosts other) received produced heard with same | ⟨now, noted⟩
      · rw [same]
        exact spreading.networks other
      · rw [noted]
        exact receive_wellFormed (spreading.networks other) now heard
    · rw [hear_hosts_ne here]
      exact spreading.networks other
  · rcases List.mem_append.mp member with old | new
    · exact spreading.broadcasts entry old
    · obtain ⟨next, sent, rfl⟩ := List.mem_map.mp new
      rcases allowed with rfl | allowed
      · rcases spreading.hosts node with ready | done
        · rw [(spreads.hears _ received produced ready fine).2] at sent
          exact Or.inl (List.mem_singleton.mp sent)
        · rw [(spreads.ignores _ received produced done).2] at sent
          cases sent
      · exact Or.inr (spreads.others _ received produced heard allowed (spreading.hosts node) next sent)

/-- A node that does not have the message takes it and has it to tell. -/
theorem flood_hear_fresh (spreads : Spreads message Ready Done Other good)
    (spreading : Spreading message Ready Done Other world) {node : ν} {received : Environment} (fine : good received)
    (produced : Environment) (fresh : ¬ Done (world.hosts node).runtime) :
    (world.hear node received produced message).flood locate message Done =
      { world.flood locate message Done with
        informed := insert (some node) (world.flood locate message Done).informed
        telling := (world.flood locate message Done).telling ++ [some node] } := by
  have ready := (spreading.hosts node).resolve_right fresh
  obtain ⟨done, sent⟩ := spreads.hears _ received produced ready fine
  ext place
  · cases place with
    | none => exact ⟨fun _ => Or.inr none_mem_informed, fun _ => none_mem_informed⟩
    | some other =>
      rw [Set.mem_insert_iff, some_mem_informed, some_mem_informed, Option.some.injEq]
      by_cases here : other = node
      · subst here
        rw [hear_hosts_self]
        exact ⟨fun _ => Or.inl rfl, fun _ => done⟩
      · rw [hear_hosts_ne here, or_iff_right here]
  · simp only [flood, GossipWorld.hear, sent, entriesFor_append, List.map_singleton]
    rw [entriesFor_cons_self]
    rfl
  · rfl

/-- The message changes nothing at a node that has it, and another message changes nothing about who has it. -/
theorem flood_hear_known {node : ν} {received produced : Environment} {heard : NetworkMessage}
    (same : Done ((world.hosts node).process received produced heard false).2.runtime ↔
      Done (world.hosts node).runtime)
    (silent : message ∉ broadcastsOf ((world.hosts node).process received produced heard false).1) :
    (world.hear node received produced heard).flood locate message Done = world.flood locate message Done := by
  ext place
  · cases place with
    | none => exact ⟨fun _ => none_mem_informed, fun _ => none_mem_informed⟩
    | some other =>
      rw [some_mem_informed, some_mem_informed]
      by_cases here : other = node
      · subst here
        rw [hear_hosts_self]
        exact same
      · rw [hear_hosts_ne here]
  · have none : entriesFor message some ((broadcastsOf ((world.hosts node).process received produced heard
        false).1).map fun next => (node, next)) = [] := by
      rw [entriesFor_eq_nil]
      intro entry member
      obtain ⟨next, sent, rfl⟩ := List.mem_map.mp member
      rintro rfl
      exact silent sent
    simp only [flood, GossipWorld.hear, entriesFor_append, none, List.append_nil]
  · rfl

/-- What a node hears other than the message leaves the flood alone. -/
theorem flood_hear_other (spreads : Spreads message Ready Done Other good)
    (spreading : Spreading message Ready Done Other world) (node : ν) (received produced : Environment)
    {heard : NetworkMessage} (other : Other heard) :
    (world.hear node received produced heard).flood locate message Done = world.flood locate message Done := by
  refine flood_hear_known ?_ fun sent => spreads.apart ?_
  · constructor
    · intro after
      rcases spreading.hosts node with ready | done
      · have still := spreads.keepsReady _ received produced heard other ready
        exact absurd after (spreads.exclusive _ still)
      · exact done
    · exact spreads.keepsDone _ received produced heard other
  · exact spreads.others _ received produced heard other (spreading.hosts node) message sent

theorem Spreading.deliver (spreads : Spreads message Ready Done Other good)
    (spreading : Spreading message Ready Done Other world) (place : Nat) {received : Environment}
    (fine : good received) (produced : Environment) :
    Spreading message Ready Done Other (world.step locate (.deliver place received produced)) := by
  simp only [GossipWorld.step]
  split
  · exact spreading
  rename_i address heard found
  obtain ⟨before, after, whole, rest⟩ := split_place found
  have left : Spreading message Ready Done Other { world with deliveries := world.deliveries.eraseIdx place } := by
    refine ⟨spreading.hosts, spreading.networks, spreading.broadcasts, fun entry member => ?_⟩
    exact spreading.deliveries entry (List.mem_of_mem_eraseIdx member)
  split
  · exact left
  · exact left.hear spreads _ fine produced (spreading.deliveries (address, heard) (List.mem_of_getElem? found))

theorem Spreading.broadcast (spreading : Spreading message Ready Done Other world) (place : Nat) :
    Spreading message Ready Done Other (world.step locate (.broadcast place)) := by
  simp only [GossipWorld.step]
  split
  · exact spreading
  rename_i node sent found
  refine ⟨spreading.hosts, spreading.networks, fun entry member => ?_, fun entry member => ?_⟩
  · exact spreading.broadcasts entry (List.mem_of_mem_eraseIdx member)
  · rcases List.mem_append.mp member with old | new
    · exact spreading.deliveries entry old
    · obtain ⟨peer, _, rfl⟩ := List.mem_map.mp new
      exact spreading.broadcasts (node, sent) (List.mem_of_getElem? found)

theorem Spreading.receive (spreading : Spreading message Ready Done Other world) (node : ν) (now : SystemTime)
    (handshake : NetworkMessage) :
    Spreading message Ready Done Other (world.step locate (.receive node now handshake)) := by
  refine ⟨fun other => ?_, fun other => ?_, spreading.broadcasts, spreading.deliveries⟩
  · by_cases here : other = node
    · subst here
      simp only [GossipWorld.step, Function.update_self, Host.receiveHandshake]
      exact spreading.hosts other
    · simp only [GossipWorld.step, Function.update_of_ne here]
      exact spreading.hosts other
  · by_cases here : other = node
    · subst here
      simp only [GossipWorld.step, Function.update_self, Host.receiveHandshake]
      exact receive_wellFormed (spreading.networks other) now handshake
    · simp only [GossipWorld.step, Function.update_of_ne here]
      exact spreading.networks other

theorem Spreading.step (spreads : Spreads message Ready Done Other good)
    (spreading : Spreading message Ready Done Other world) (event : GossipEvent ν)
    (fine : event.Meets good) : Spreading message Ready Done Other (world.step locate event) := by
  cases event with
  | deliver place received produced => exact spreading.deliver spreads place fine produced
  | broadcast place => exact spreading.broadcast place
  | receive node now handshake => exact spreading.receive node now handshake

/-- Peers are only added. -/
theorem step_peers (locate : Text → Option ν) (world : GossipWorld ν) (event : GossipEvent ν) (node : ν) :
    (world.hosts node).network.peers ⊆ ((world.step locate event).hosts node).network.peers := by
  have hears : ∀ (world : GossipWorld ν) hearer received produced heard, (world.hosts node).network.peers ⊆
      ((world.hear hearer received produced heard).hosts node).network.peers := by
    intro world hearer received produced heard
    by_cases here : node = hearer
    · subst here
      rw [hear_hosts_self]
      rcases process_network (world.hosts node) received produced heard with same | ⟨now, noted⟩
      · rw [same]
        exact List.Subset.refl _
      · rw [noted]
        exact receive_peers _ now heard
    · rw [hear_hosts_ne here]
      exact List.Subset.refl _
  cases event with
  | deliver place received produced =>
    simp only [GossipWorld.step]
    split
    · exact List.Subset.refl _
    · split
      · exact List.Subset.refl _
      · exact hears { world with deliveries := world.deliveries.eraseIdx place } _ received produced _
  | broadcast place =>
    simp only [GossipWorld.step]
    split <;> exact List.Subset.refl _
  | receive noting now handshake =>
    by_cases here : node = noting
    · subst here
      simp only [GossipWorld.step, Function.update_self, Host.receiveHandshake]
      exact receive_peers _ now handshake
    · simp only [GossipWorld.step, Function.update_of_ne here]
      exact List.Subset.refl _

/-- A broadcast of the message tells the peers, any other broadcast nothing. -/
theorem flood_broadcast (spreading : Spreading message Ready Done Other world) {place : Nat} {node : ν}
    {sent : NetworkMessage} (found : world.broadcasts[place]? = some (node, sent))
    {links' : Option ν → Set (Option ν)} (known : ∀ place, links' place ⊆ world.links locate place) :
    (sent = message → Flood.Step links' maxNetworkPeers (world.flood locate message Done)
      ((world.step locate (.broadcast place)).flood locate message Done)) ∧
    (sent ≠ message →
      (world.step locate (.broadcast place)).flood locate message Done = world.flood locate message Done) := by
  obtain ⟨before, after, whole, rest⟩ := split_place found
  have taken : world.step locate (.broadcast place) =
      { world with
        broadcasts := before ++ after
        deliveries := world.deliveries ++ (world.hosts node).network.peers.map fun peer => (peer, sent) } := by
    simp only [GossipWorld.step, found, rest]
  rw [taken]
  constructor
  · rintro rfl
    have first : world.flood locate sent Done =
        { world.flood locate sent Done with
          telling := entriesFor sent some before ++ some node :: entriesFor sent some after } := by
      simp only [flood, whole, entriesFor_append, entriesFor_cons_self]
    have second : ({ world with
        broadcasts := before ++ after
        deliveries := world.deliveries ++ (world.hosts node).network.peers.map fun peer => (peer, sent) } :
          GossipWorld ν).flood locate sent Done =
        { world.flood locate sent Done with
          telling := entriesFor sent some before ++ entriesFor sent some after
          told := (world.flood locate sent Done).told ++ (world.hosts node).network.peers.map locate } := by
      simp only [flood, entriesFor_append, entriesFor_map, if_true]
    rw [first, second]
    refine .tell (fun neighbour linked => ?_) ?_
    · obtain ⟨peer, listed, rfl⟩ := known (some node) linked
      exact List.mem_map_of_mem listed
    · rw [List.length_map]
      exact (spreading.networks node).peers.count
  · intro apart
    simp only [flood, whole, entriesFor_append, entriesFor_cons_ne _ _ apart, entriesFor_map, if_neg apart,
      List.append_nil]

/-- The message is heard or ignored where it arrives, any other message is nothing to the flood. -/
theorem flood_deliver (spreads : Spreads message Ready Done Other good)
    (spreading : Spreading message Ready Done Other world) {place : Nat} {address : Text} {heard : NetworkMessage}
    (found : world.deliveries[place]? = some (address, heard)) {received : Environment} (fine : good received)
    (produced : Environment) {links' : Option ν → Set (Option ν)} :
    (heard = message → Flood.Step links' maxNetworkPeers (world.flood locate message Done)
      ((world.step locate (.deliver place received produced)).flood locate message Done)) ∧
    (heard ≠ message → (world.step locate (.deliver place received produced)).flood locate message Done =
      world.flood locate message Done) := by
  obtain ⟨before, after, whole, rest⟩ := split_place found
  let left : GossipWorld ν := { world with deliveries := before ++ after }
  have taken : world.step locate (.deliver place received produced) =
      match locate address with
      | none => left
      | some node => left.hear node received produced heard := by
    simp only [GossipWorld.step, found, rest]
    rfl
  have spreadingLeft : Spreading message Ready Done Other left := by
    refine ⟨spreading.hosts, spreading.networks, spreading.broadcasts, fun entry member => ?_⟩
    refine spreading.deliveries entry ?_
    rw [whole, List.mem_append, List.mem_cons]
    rcases List.mem_append.mp member with front | back
    · exact Or.inl front
    · exact Or.inr (Or.inr back)
  rw [taken]
  constructor
  · rintro rfl
    have first : world.flood locate heard Done =
        { left.flood locate heard Done with
          told := entriesFor heard locate before ++ locate address :: entriesFor heard locate after } := by
      simp only [left, flood, whole, entriesFor_append, entriesFor_cons_self]
    have second : left.flood locate heard Done =
        { left.flood locate heard Done with
          told := entriesFor heard locate before ++ entriesFor heard locate after } := by
      simp only [left, flood, entriesFor_append]
    rw [first]
    cases located : locate address with
    | none =>
      dsimp only
      have nobody : none ∈ (left.flood locate heard Done).informed := none_mem_informed
      rw [second]
      exact .ignore nobody
    | some node =>
      dsimp only
      by_cases done : Done (left.hosts node).runtime
      · obtain ⟨still, silent⟩ := spreads.ignores (left.hosts node) received produced done
        have same : (left.hear node received produced heard).flood locate heard Done = left.flood locate heard Done :=
          flood_hear_known ⟨fun _ => done, fun _ => still⟩ (by rw [silent]; exact List.not_mem_nil)
        have informed : some node ∈ (left.flood locate heard Done).informed := some_mem_informed.mpr done
        rw [same, second]
        exact .ignore informed
      · have uninformed : some node ∉ (left.flood locate heard Done).informed :=
          mt some_mem_informed.mp done
        rw [flood_hear_fresh spreads spreadingLeft fine produced done, second]
        exact .hear uninformed
  · intro apart
    have other : Other heard :=
      (spreading.deliveries (address, heard) (List.mem_of_getElem? found)).resolve_left apart
    have same : left.flood locate message Done = world.flood locate message Done := by
      simp only [left, flood, whole, entriesFor_append, entriesFor_cons_ne _ _ apart]
    rw [← same]
    split
    · rfl
    · exact flood_hear_other spreads spreadingLeft _ received produced other

/-- Seen from the message, an event about it is a step of the flood, and every other event is none. -/
theorem flood_step (spreads : Spreads message Ready Done Other good)
    (spreading : Spreading message Ready Done Other world) {event : GossipEvent ν} (fine : event.Meets good)
    {links' : Option ν → Set (Option ν)} (known : ∀ place, links' place ⊆ world.links locate place) :
    (world.about message event = true → Flood.Step links' maxNetworkPeers (world.flood locate message Done)
      ((world.step locate event).flood locate message Done)) ∧
    (world.about message event = false →
      (world.step locate event).flood locate message Done = world.flood locate message Done) := by
  cases event with
  | receive node now handshake =>
    have runtimes : ∀ other, ((world.step locate (.receive node now handshake)).hosts other).runtime =
        (world.hosts other).runtime := by
      intro other
      by_cases here : other = node
      · subst here
        simp only [GossipWorld.step, Function.update_self, Host.receiveHandshake]
      · simp only [GossipWorld.step, Function.update_of_ne here]
    refine ⟨fun wrong => absurd wrong Bool.false_ne_true, fun _ => ?_⟩
    simp only [flood, runtimes]
    rfl
  | broadcast place =>
    simp only [about]
    cases found : world.broadcasts[place]? with
    | none =>
      refine ⟨fun wrong => absurd wrong Bool.false_ne_true, fun _ => ?_⟩
      simp only [GossipWorld.step, found]
    | some entry =>
      have both := flood_broadcast spreading found known
      simpa using both
  | deliver place received produced =>
    simp only [about]
    cases found : world.deliveries[place]? with
    | none =>
      refine ⟨fun wrong => absurd wrong Bool.false_ne_true, fun _ => ?_⟩
      simp only [GossipWorld.step, found]
    | some entry =>
      have both := @flood_deliver _ _ _ message Ready Done Other good locate world spreads spreading place entry.1
        entry.2 found received fine produced links'
      simpa using both

end Steps

/-- What holds after every run: the news has gone from where it was to the peers of who has it, and every
event about it was paid for. -/
theorem Spreading.run (spreads : Spreads message Ready Done Other good) {world : GossipWorld ν}
    (spreading : Spreading message Ready Done Other world) {links' : Option ν → Set (Option ν)}
    (known : ∀ place, links' place ⊆ world.links locate place)
    (covered : (world.flood locate message Done).Covered links') {events : List (GossipEvent ν)}
    (fine : ∀ event ∈ events, event.Meets good) :
    let final := runFrom (GossipWorld.step locate) world events
    Spreading message Ready Done Other final ∧
      (world.flood locate message Done).informed ⊆ (final.flood locate message Done).informed ∧
      (final.flood locate message Done).Covered links' ∧
      (Finite ν → (final.flood locate message Done).work maxNetworkPeers + spent locate message world events ≤
        (world.flood locate message Done).work maxNetworkPeers) := by
  induction events generalizing world with
  | nil => exact ⟨spreading, subset_rfl, covered, fun _ => Nat.le_refl _⟩
  | cons event events ih =>
    have first := fine event List.mem_cons_self
    have still : ∀ place, links' place ⊆ (world.step locate event).links locate place := by
      intro place other linked
      cases place with
      | none => exact absurd (known none linked) (Set.notMem_empty _)
      | some node =>
        obtain ⟨peer, listed, located⟩ := known (some node) linked
        exact ⟨peer, step_peers locate world event node listed, located⟩
    obtain ⟨moves, rests⟩ := @flood_step _ _ _ message Ready Done Other good locate world spreads spreading event
      first links' known
    have stepped : Spreading message Ready Done Other (world.step locate event) := spreading.step spreads event first
    have rest := fun event member => fine event (List.mem_cons_of_mem _ member)
    cases turn : world.about message event with
    | true =>
      have move := moves turn
      obtain ⟨last, informed, end', paid⟩ := ih stepped still (covered.step move) rest
      refine ⟨last, move.informed_subset.trans informed, end', fun finite => ?_⟩
      have later := paid finite
      have less := move.work_lt
      rw [spent, turn, if_pos rfl]
      change ((runFrom (GossipWorld.step locate) (world.step locate event) events).flood locate message Done).work
        maxNetworkPeers + _ ≤ _
      omega
    | false =>
      have same := rests turn
      obtain ⟨last, informed, end', paid⟩ := ih stepped still (by rw [same]; exact covered) rest
      rw [same] at informed paid
      refine ⟨last, informed, end', fun finite => ?_⟩
      have later := paid finite
      rw [spent, turn]
      simp only [Bool.false_eq_true, if_false, Nat.zero_add]
      exact later

end GossipWorld

end

end Kybernetes
