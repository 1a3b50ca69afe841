import Kybernetes.Base.Runs
import Kybernetes.Connections
import Kybernetes.FrameSoundness
import Kybernetes.Messages
import Kybernetes.PeerRegistry

namespace Kybernetes

section

variable [Crypto]

/-- What the lock of a running node protects, with its chain file. -/
structure Host where
  runtime : NodeRuntime
  network : Network
  file : ChainFile

/-- A connection that `handle_session` serves, between two of its steps. -/
structure Session where
  connection : Connection
  oneShotClient : Bool
  /-- The handshake, until the node has taken note of it. -/
  handshake : Option NetworkMessage
  /-- What is left to do of the actions for the last message. -/
  actions : List RuntimeAction
  replyError : Option Fault
  ended : Option (Result Unit)

/-- A node in a session, and the messages that the session has sent to peers, with the address. -/
structure Served where
  host : Host
  session : Session
  outgoing : List (Text × NetworkMessage)

/-- A step of the session or of any other task of the node. -/
inductive SessionEvent
  | own (received produced : Environment)
  | others (change : Host → Host)

namespace Host

/-- `Node::receive_message` on a handshake. -/
def receiveHandshake (self : Host) (now : SystemTime) (handshake : NetworkMessage) : Host :=
  { self with network := self.network.receive now handshake }

/-- `process_message` on all that the lock protects. -/
def process (self : Host) (received produced : Environment) (message : NetworkMessage) (oneShotClient : Bool) :
    Result ProcessOutcome × Host :=
  let processed := self.runtime.processMessage received produced self.file message oneShotClient
  let network :=
    match message with
    | .handshake .. | .handshakeAck .. => self.network.receive (received.clock 0) message
    | _ => self.network
  (processed.1, { runtime := processed.2.1, network, file := processed.2.2 })

end Host

omit [Crypto] in
/-- A handshake with the address that only one-shot clients have. -/
def isOneShotClient : NetworkMessage → Bool
  | .handshake _ _ listenAddress _ _ _ _ _ => listenAddress == oneShotClientListenAddress
  | _ => false

namespace Session

omit [Crypto] in
def start (connection : Connection) (handshake : NetworkMessage) : Session where
  connection := connection
  oneShotClient := isOneShotClient handshake
  handshake := some handshake
  actions := []
  replyError := none
  ended := none

omit [Crypto] in
/-- A connection that was not authenticated. -/
def rejected (connection : Connection) (fault : Fault) : Session where
  connection := connection
  oneShotClient := false
  handshake := none
  actions := []
  replyError := none
  ended := some (.error fault)

end Session

namespace Served

omit [Crypto] in
/-- One of the actions for a message. The first error of a reply ends the session after the last action. -/
def act (self : Served) (action : RuntimeAction) (rest : List RuntimeAction) : Served :=
  match action with
  | .reply message =>
    match TcpTransport.send message self.session.connection with
    | (.ok (), connection) => { self with session := { self.session with connection, actions := rest } }
    | (.error fault, connection) =>
      { self with session := { self.session with
          connection, actions := rest, replyError := self.session.replyError.or (some fault) } }
  | .broadcast message =>
    { self with
      session := { self.session with actions := rest }
      outgoing := self.outgoing ++ self.host.network.peers.map fun peer => (peer, message) }

/-- The next message of the session is read and processed. -/
def take (fromSlice : Bytes → Except String NetworkMessage) (received produced : Environment) (self : Served) :
    Served :=
  match TcpTransport.readOrEof fromSlice self.session.connection with
  | (.error fault, connection) =>
    { self with session := { self.session with connection, ended := some (.error fault) } }
  | (.ok none, connection) => { self with session := { self.session with connection, ended := some (.ok ()) } }
  | (.ok (some message), connection) =>
    match message with
    | .chainChunkResponse .. =>
      { self with session := { self.session with
          connection, ended := some (.error (.error "Unexpected chain chunk response rejected")) } }
    | _ =>
      match self.host.process received produced message self.session.oneShotClient with
      | (.error fault, host) =>
        { self with host, session := { self.session with connection, ended := some (.error fault) } }
      | (.ok outcome, host) =>
        { self with host, session := { self.session with connection, actions := outcome.actions } }

/-- A step of the session: up to the next time it gives up the lock or waits for its peer. -/
def proceed (fromSlice : Bytes → Except String NetworkMessage) (received produced : Environment) (self : Served) :
    Served :=
  match self.session.ended, self.session.handshake, self.session.actions, self.session.replyError with
  | some _, _, _, _ => self
  | none, some handshake, _, _ =>
    { self with
      host := self.host.receiveHandshake (received.clock 0) handshake
      session := { self.session with handshake := none } }
  | none, none, action :: rest, _ => self.act action rest
  | none, none, [], some fault => { self with session := { self.session with ended := some (.error fault) } }
  | none, none, [], none => self.take fromSlice received produced

def step (fromSlice : Bytes → Except String NetworkMessage) (self : Served) : SessionEvent → Served
  | .own received produced => self.proceed fromSlice received produced
  | .others change => { self with host := change self.host }

end Served

/-- What becomes of a connection that a node accepts. -/
def serve (fromSlice : Bytes → Except String NetworkMessage) (now now' : SystemTime) (p2pIdentity : Wallet)
    (host : Host) (connection : Connection) (events : List SessionEvent) : Served :=
  match TcpTransport.acceptHandshake fromSlice now now' p2pIdentity connection with
  | (.error fault, connection) => { host, session := Session.rejected connection fault, outgoing := [] }
  | (.ok handshake, connection) =>
    runFrom (Served.step fromSlice) { host, session := Session.start connection handshake, outgoing := [] } events

/-! ### A session one step after the other -/

omit [Crypto] in
/-- The replies among the actions that can be sent. -/
def sendableReplies (actions : List RuntimeAction) : List NetworkMessage :=
  (ProcessOutcome.replies { actions }).filter fun message => TcpTransport.Sendable message

omit [Crypto] in
theorem sendableReplies_append (first second : List RuntimeAction) :
    sendableReplies (first ++ second) = sendableReplies first ++ sendableReplies second := by
  simp only [sendableReplies, ProcessOutcome.replies, List.filterMap_append, List.filter_append]

namespace Served

variable {fromSlice : Bytes → Except String NetworkMessage} {received produced : Environment} {served : Served}

/-- A step of a session never takes back what was sent. -/
theorem proceed_sent (fromSlice : Bytes → Except String NetworkMessage) (received produced : Environment)
    (served : Served) : ∃ more,
    (served.proceed fromSlice received produced).session.connection.sent =
      served.session.connection.sent ++ more := by
  unfold proceed
  split
  · exact ⟨[], (List.append_nil _).symm⟩
  · exact ⟨[], (List.append_nil _).symm⟩
  · rename_i action rest _ _ _
    cases action with
    | reply message =>
      rcases TcpTransport.send_cases served.session.connection message with ⟨fault, failed⟩ | ⟨_, sent⟩
      · refine ⟨[], ?_⟩
        rw [List.append_nil]
        simp only [act, failed]
      · refine ⟨[message], ?_⟩
        simp only [act, sent]
    | broadcast message => exact ⟨[], (List.append_nil _).symm⟩
  · exact ⟨[], (List.append_nil _).symm⟩
  · refine ⟨[], ?_⟩
    rw [List.append_nil]
    have unsent : (TcpTransport.readOrEof fromSlice served.session.connection).2.sent =
        served.session.connection.sent := rfl
    unfold take
    split
    · rename_i connection read
      rw [read] at unsent
      exact unsent
    · rename_i connection read
      rw [read] at unsent
      exact unsent
    · rename_i connection read
      rw [read] at unsent
      split
      · exact unsent
      · split <;> exact unsent

theorem run_sent (served : Served) (events : List SessionEvent) :
    ∃ more, (runFrom (step fromSlice) served events).session.connection.sent =
      served.session.connection.sent ++ more := by
  refine runFrom_invariant (fun later : Served => ∃ more, later.session.connection.sent =
    served.session.connection.sent ++ more) ?_ ⟨[], (List.append_nil _).symm⟩ events
  rintro later event ⟨more, sent⟩
  cases event with
  | own received produced =>
    obtain ⟨added, grown⟩ := later.proceed_sent fromSlice received produced
    exact ⟨more ++ added, by rw [step, grown, sent, List.append_assoc]⟩
  | others change => exact ⟨more, sent⟩

/-- Nothing but the handshake was sent to the peer in the session, and its request has not been read. -/
structure Waiting (request : NetworkMessage) (oneShotClient : Bool) (sent : List NetworkMessage)
    (session : Session) : Prop where
  stream : session.connection.stream.flatten = TcpTransport.frame request
  writes : ∀ n, session.connection.writes n = .ok ()
  sent : session.connection.sent = sent
  client : session.oneShotClient = oneShotClient
  actions : session.actions = []
  replyError : session.replyError = none
  running : session.ended = none

/-- The request was read. `sent` is what the session had sent before. -/
structure Answering (outcome : ProcessOutcome) (sent : List NetworkMessage) (session : Session) : Prop where
  stream : session.connection.stream.flatten = []
  writes : ∀ n, session.connection.writes n = .ok ()
  greeted : session.handshake = none
  progress : ∃ done, outcome.actions = done ++ session.actions ∧
    session.connection.sent = sent ++ sendableReplies done
  finished : session.ended.isSome = true → session.actions = []

/-- What a session does after its request was processed. -/
def Processed (sent : List NetworkMessage) (session : Session) : Result ProcessOutcome → Prop
  | .ok outcome => Answering outcome sent session
  | .error _ => session.ended.isSome = true ∧ session.connection.sent = sent

variable {outcome : ProcessOutcome} {request : NetworkMessage} {oneShotClient : Bool} {sent : List NetworkMessage}

theorem Answering.act (answering : Answering outcome sent served.session) (running : served.session.ended = none)
    {action : RuntimeAction} {rest : List RuntimeAction} (next : served.session.actions = action :: rest) :
    Answering outcome sent (served.act action rest).session := by
  obtain ⟨stream, writes, greeted, ⟨done, actions, sentSoFar⟩, _⟩ := answering
  rw [next, ← List.singleton_append, ← List.append_assoc] at actions
  have unfinished : ∀ ended : Option (Result Unit), ended = none → ended.isSome = true → rest = [] := by
    rintro _ rfl some
    cases some
  cases action with
  | broadcast message =>
    refine ⟨stream, writes, greeted, ⟨done ++ [.broadcast message], actions, ?_⟩, unfinished _ running⟩
    rw [sendableReplies_append, ← List.append_assoc, ← sentSoFar]
    exact (List.append_nil _).symm
  | reply message =>
    by_cases sendable : TcpTransport.Sendable message
    · have kept : sendableReplies [.reply message] = [message] := by
        simp [sendableReplies, ProcessOutcome.replies, sendable]
      have passed := TcpTransport.send_of_sendable served.session.connection sendable (writes _)
      simp only [Served.act, passed]
      refine ⟨stream, writes, greeted, ⟨done ++ [.reply message], actions, ?_⟩, unfinished _ running⟩
      rw [sendableReplies_append, kept, sentSoFar, List.append_assoc]
    · have dropped : sendableReplies [.reply message] = [] := by
        simp [sendableReplies, ProcessOutcome.replies, sendable]
      rcases TcpTransport.send_cases served.session.connection message with ⟨fault, failed⟩ | ⟨can, _⟩
      · simp only [Served.act, failed]
        refine ⟨stream, writes, greeted, ⟨done ++ [.reply message], actions, ?_⟩, unfinished _ running⟩
        rw [sendableReplies_append, dropped, List.append_nil, sentSoFar]
      · exact absurd can sendable

theorem Answering.proceed (answering : Answering outcome sent served.session) :
    Answering outcome sent (served.proceed fromSlice received produced).session := by
  have greeted := answering.greeted
  unfold Served.proceed
  split
  · exact answering
  · rename_i handshake _ _ pending
    rw [greeted] at pending
    cases pending
  · rename_i running _ next
    exact answering.act running next
  · rename_i actions _
    exact ⟨answering.stream, answering.writes, answering.greeted, answering.progress, fun _ => actions⟩
  · rename_i actions _
    obtain ⟨tail, read, left⟩ := TcpTransport.readOrEof_end fromSlice answering.stream
    unfold Served.take
    rw [read]
    exact ⟨left, answering.writes, answering.greeted, answering.progress, fun _ => actions⟩

/-- The request is processed in the step that reads it. -/
theorem Waiting.read (decodes : Decodes fromSlice) (sendable : TcpTransport.Sendable request)
    (waiting : Waiting request oneShotClient sent served.session) (greeted : served.session.handshake = none) :
    Processed sent (served.proceed fromSlice received produced).session
        (served.host.process received produced request oneShotClient).1 ∧
      (served.proceed fromSlice received produced).host =
        (served.host.process received produced request oneShotClient).2 := by
  obtain ⟨stream, writes, sentSoFar, client, actions, replyError, running⟩ := waiting
  rw [← List.append_nil (TcpTransport.frame request)] at stream
  obtain ⟨tail, read, left⟩ := TcpTransport.readOrEof_frame _ decodes sendable stream
  unfold Served.proceed
  rw [running, greeted, actions, replyError]
  dsimp only
  unfold Served.take
  rw [read, client]
  dsimp only
  -- a chunk is refused before it is processed, and would be refused there too
  split
  · exact ⟨⟨rfl, sentSoFar⟩, rfl⟩
  · cases processed : served.host.process received produced request oneShotClient with
    | mk result host =>
      cases result with
      | error fault => exact ⟨⟨rfl, sentSoFar⟩, rfl⟩
      | ok outcome =>
        refine ⟨⟨left, writes, greeted, ⟨[], rfl, ?_⟩, fun ended => ?_⟩, rfl⟩
        · rw [sentSoFar]
          exact (List.append_nil _).symm
        · rw [running] at ended
          cases ended

theorem Waiting.proceed (decodes : Decodes fromSlice) (sendable : TcpTransport.Sendable request)
    (waiting : Waiting request oneShotClient sent served.session) :
    Waiting request oneShotClient sent (served.proceed fromSlice received produced).session ∨
      Processed sent (served.proceed fromSlice received produced).session
          (served.host.process received produced request oneShotClient).1 ∧
        (served.proceed fromSlice received produced).host =
          (served.host.process received produced request oneShotClient).2 := by
  cases greeting : served.session.handshake with
  | none => exact Or.inr (waiting.read decodes sendable greeting)
  | some handshake =>
    obtain ⟨stream, writes, sentSoFar, client, actions, replyError, running⟩ := waiting
    left
    unfold Served.proceed
    rw [running, greeting]
    exact ⟨stream, writes, sentSoFar, client, actions, replyError, running⟩

theorem Processed.proceed {result : Result ProcessOutcome} (processed : Processed sent served.session result) :
    Processed sent (served.proceed fromSlice received produced).session result := by
  cases result with
  | ok outcome => exact Answering.proceed processed
  | error fault =>
    obtain ⟨some, same⟩ := processed
    obtain ⟨final, ended⟩ := Option.isSome_iff_exists.mp some
    have still : served.proceed fromSlice received produced = served := by
      unfold Served.proceed
      rw [ended]
    rw [still]
    exact ⟨some, same⟩

theorem Processed.run {result : Result ProcessOutcome} (processed : Processed sent served.session result)
    (events : List SessionEvent) : Processed sent (runFrom (step fromSlice) served events).session result := by
  refine runFrom_invariant (fun later : Served => Processed sent later.session result) ?_ processed events
  intro later event processed
  cases event with
  | own received produced => exact processed.proceed
  | others change => exact processed

/-- In every interleaving with other tasks, a session waits for its request or has processed it at
one of its own steps. -/
theorem run_stage (decodes : Decodes fromSlice) (sendable : TcpTransport.Sendable request)
    (waiting : Waiting request oneShotClient sent served.session) (events : List SessionEvent) :
    Waiting request oneShotClient sent (runFrom (step fromSlice) served events).session ∨
      ∃ earlier received produced later, events = earlier ++ .own received produced :: later ∧
        Processed sent (runFrom (step fromSlice) served events).session
          ((runFrom (step fromSlice) served earlier).host.process received produced request oneShotClient).1 ∧
        (runFrom (step fromSlice) served (earlier ++ [.own received produced])).host =
          ((runFrom (step fromSlice) served earlier).host.process received produced request oneShotClient).2 := by
  have last : ∀ events event, runFrom (step fromSlice) served (events ++ [event]) =
      step fromSlice (runFrom (step fromSlice) served events) event := by
    intro events event
    rw [runFrom, runFrom, List.foldl_append, List.foldl_cons, List.foldl_nil]
  induction events using List.reverseRecOn with
  | nil => exact Or.inl waiting
  | append_singleton events event ih =>
    rcases ih with still | ⟨earlier, received, produced, later, rfl, processed, host⟩
    · cases event with
      | others change =>
        rw [last]
        exact Or.inl still
      | own received produced =>
        rcases still.proceed decodes sendable with waits | ⟨processed, host⟩
        · rw [last]
          exact Or.inl waits
        · refine Or.inr ⟨events, received, produced, [], rfl, ?_, ?_⟩
          · rw [last]
            exact processed
          · rw [last]
            exact host
    · refine Or.inr ⟨earlier, received, produced, later ++ [event], by rw [List.append_assoc, List.cons_append], ?_,
        host⟩
      rw [last]
      exact processed.run [event]

end Served

/-! ### The end of a session -/

omit [Crypto] in
theorem map_eq_ok {α β : Type} {x : Result α} {f : α → β} {b : β} : x.map f = .ok b ↔ ∃ a, x = .ok a ∧ f a = b := by
  cases x <;> simp [Except.map]

theorem appendPendingBlockAction_actions {runtime : NodeRuntime} {env : Environment} {file : ChainFile}
    {outcome outcome' : ProcessOutcome}
    (appended : (runtime.appendPendingBlockAction env file outcome).1 = .ok outcome') :
    outcome'.actions.length ≤ outcome.actions.length + 1 := by
  unfold NodeRuntime.appendPendingBlockAction at appended
  split at appended <;> cases appended
  · rw [List.length_append, List.length_singleton]
  · exact Nat.le_succ _
  · exact Nat.le_succ _

/-- A message is answered with three actions at most. -/
theorem Host.process_actions {host : Host} {received produced : Environment} {message : NetworkMessage}
    {oneShotClient : Bool} {outcome : ProcessOutcome}
    (processed : (host.process received produced message oneShotClient).1 = .ok outcome) :
    outcome.actions.length ≤ 3 := by
  change (host.runtime.processMessage received produced host.file message oneShotClient).1 = .ok outcome at processed
  cases message with
  | handshake | handshakeAck =>
    cases processed
    exact Nat.zero_le _
  | transactionAck | chainChunkResponse | accountStateResponse => cases processed
  | syncRequest | chainChunkRequest | accountStateRequest =>
    obtain ⟨reply, _, rfl⟩ := map_eq_ok.mp processed
    exact Nat.le_add_left 1 2
  | transaction transaction =>
    simp only [NodeRuntime.processMessage, NodeRuntime.processTransaction] at processed
    split at processed
    · have appended := appendPendingBlockAction_actions processed
      refine le_trans appended ?_
      dsimp only
      split <;> exact Nat.le_of_ble_eq_true rfl
    · cases processed
      dsimp only
      split <;> exact Nat.le_of_ble_eq_true rfl
    · cases processed
  | block block =>
    simp only [NodeRuntime.processMessage, NodeRuntime.processBlock] at processed
    split at processed
    · split at processed
      · have appended := appendPendingBlockAction_actions processed
        exact le_trans appended (Nat.le_succ 2)
      · cases processed
        exact Nat.zero_le _
    · cases processed
    · cases processed

omit [Crypto] in
theorem TcpTransport.readOrEof_shortens {fromSlice : Bytes → Except String NetworkMessage}
    {connection connection' : Connection} {message : NetworkMessage}
    (received : readOrEof fromSlice connection = (.ok (some message), connection')) :
    connection'.stream.flatten.length + 5 ≤ connection.stream.flatten.length := by
  have result := congrArg Prod.fst received
  have stream := congrArg (fun pair => pair.2.stream) received
  exact readMessageOrEof_shortens (Prod.ext result stream)

namespace Session

omit [Crypto] in
/-- What is left to do of a session: its end, the handshake, the actions, and at least a byte of the
stream for each of the steps that a message takes. -/
def left (session : Session) : Nat :=
  if session.ended.isSome then 0
  else 1 + session.handshake.toList.length + session.actions.length + session.connection.stream.flatten.length

omit [Crypto] in
theorem left_running {session : Session} (running : session.ended = none) : session.left =
    1 + session.handshake.toList.length + session.actions.length + session.connection.stream.flatten.length := by
  rw [left, running]
  rfl

omit [Crypto] in
theorem left_le (session : Session) : session.left ≤
    1 + session.handshake.toList.length + session.actions.length + session.connection.stream.flatten.length := by
  unfold left
  split
  · exact Nat.zero_le _
  · exact Nat.le_refl _

omit [Crypto] in
theorem ended_of_left {session : Session} (none : session.left = 0) : session.ended.isSome = true := by
  by_contra running
  have still := left_running (Option.not_isSome_iff_eq_none.mp running)
  omega

end Session

namespace Served

variable {fromSlice : Bytes → Except String NetworkMessage} {received produced : Environment} {served : Served}

theorem act_left {action : RuntimeAction} {rest : List RuntimeAction} (running : served.session.ended = none)
    (next : served.session.actions = action :: rest) :
    (served.act action rest).session.left + 1 = served.session.left := by
  have before := Session.left_running running
  rw [next, List.length_cons] at before
  have after : (served.act action rest).session.left =
      1 + served.session.handshake.toList.length + rest.length + served.session.connection.stream.flatten.length := by
    cases action with
    | broadcast message => exact Session.left_running running
    | reply message =>
      rcases TcpTransport.send_cases served.session.connection message with ⟨fault, failed⟩ | ⟨_, sent⟩
      · simp only [act, failed]
        exact Session.left_running running
      · simp only [act, sent]
        exact Session.left_running running
  omega

theorem take_left (running : served.session.ended = none) :
    (served.take fromSlice received produced).session.left < served.session.left := by
  have before := Session.left_running running
  have positive : 0 < served.session.left := by omega
  unfold take
  split
  · exact positive
  · exact positive
  · rename_i message connection read
    have shorter := TcpTransport.readOrEof_shortens read
    split
    · exact positive
    · split
      · exact positive
      · rename_i outcome host processed
        have few := Host.process_actions (congrArg Prod.fst processed)
        refine lt_of_le_of_lt (Session.left_le _) ?_
        dsimp only
        omega

/-- Every step of a session that has not ended leaves less to do. -/
theorem proceed_left (served : Served) :
    (served.proceed fromSlice received produced).session.left ≤ served.session.left - 1 := by
  unfold proceed
  split
  · rename_i result ended
    rw [Session.left, ended]
    exact Nat.zero_le _
  · rename_i handshake running greeting
    have before := Session.left_running running
    have after := Session.left_le { served.session with handshake := none }
    rw [greeting] at before
    simp only [Option.toList, List.length_singleton, List.length_nil] at before after
    dsimp only
    omega
  · rename_i action rest running _ next
    have less := act_left running next
    omega
  · exact Nat.zero_le _
  · rename_i running _ _ _
    have less := @take_left _ fromSlice received produced served running
    omega

end Served

omit [Crypto] in
def SessionEvent.isOwn : SessionEvent → Bool
  | .own _ _ => true
  | .others _ => false

omit [Crypto] in
theorem TcpTransport.read_shortens {fromSlice : Bytes → Except String NetworkMessage}
    {connection connection' : Connection} {message : NetworkMessage}
    (received : read fromSlice connection = (.ok message, connection')) :
    connection'.stream.flatten.length + 5 ≤ connection.stream.flatten.length := by
  obtain ⟨taken, middle, first, waited⟩ := Effect.bind_eq_ok.mp received
  have same : middle = connection' := congrArg Prod.snd waited
  have some : taken = some message := okOr_eq_ok.mp (congrArg Prod.fst waited)
  rw [some, same] at first
  exact readOrEof_shortens first

/-- An accepted handshake was a message of the stream. -/
theorem TcpTransport.acceptHandshake_shortens {fromSlice : Bytes → Except String NetworkMessage} {now now' : SystemTime}
    {p2pIdentity : Wallet} {connection connection' : Connection} {handshake : NetworkMessage}
    (accepted : acceptHandshake fromSlice now now' p2pIdentity connection = (.ok handshake, connection')) :
    connection'.stream.flatten.length + 5 ≤ connection.stream.flatten.length := by
  obtain ⟨message, middle, read, answered⟩ := Effect.bind_eq_ok.mp accepted
  have shorter := read_shortens read
  obtain ⟨_, behind, sent, rest⟩ := Effect.bind_eq_ok.mp answered
  obtain ⟨_, after, verdict, last⟩ := Effect.bind_eq_ok.mp rest
  have same : behind = connection' := (congrArg Prod.snd verdict).trans (congrArg Prod.snd last)
  rcases send_cases middle (authenticateIncoming now now' p2pIdentity message).1 with ⟨fault, failed⟩ | ⟨_, passed⟩
  · cases failed.symm.trans sent
  · cases passed.symm.trans sent
    rw [← same]
    exact shorter

/-- The own steps of a session use up what it has to do. -/
theorem serve_left (fromSlice : Bytes → Except String NetworkMessage) (now now' : SystemTime)
    (p2pIdentity : Wallet) (host : Host) (connection : Connection) (events : List SessionEvent) :
    (serve fromSlice now now' p2pIdentity host connection events).session.left ≤
      connection.stream.flatten.length - events.countP SessionEvent.isOwn := by
  have falls : ∀ (served : Served) event, (served.step fromSlice event).session.left ≤
      served.session.left - if SessionEvent.isOwn event then 1 else 0 := by
    intro served event
    cases event with
    | own received produced => exact served.proceed_left
    | others change => exact Nat.le_refl _
  unfold serve
  split
  · exact Nat.zero_le _
  · rename_i handshake connection' accepted
    have shorter := TcpTransport.acceptHandshake_shortens accepted
    have rest := runFrom_countdown (fun served : Served => served.session.left) falls
      { host, session := Session.start connection' handshake, outgoing := [] } events
    have first : (Session.start connection' handshake).left = 2 + connection'.stream.flatten.length := rfl
    dsimp only at rest
    omega

/-- A session comes to its end: a peer that has sent so many bytes can keep it busy for so many of its own
steps, whatever the bytes are and whatever the other tasks of the node do. -/
theorem session_ends (fromSlice : Bytes → Except String NetworkMessage) (now now' : SystemTime)
    (p2pIdentity : Wallet) (host : Host) (connection : Connection) (events : List SessionEvent)
    (enough : connection.stream.flatten.length ≤ events.countP SessionEvent.isOwn) :
    (serve fromSlice now now' p2pIdentity host connection events).session.ended.isSome = true := by
  have left := serve_left fromSlice now now' p2pIdentity host connection events
  exact Session.ended_of_left (by omega)

/-- What a client gets for a request: the first reply that can be sent, or the end of the connection. -/
def answerOf : Result ProcessOutcome → Result NetworkMessage
  | .ok outcome => okOr (sendableReplies outcome.actions).head? "Network connection closed while waiting for a message"
  | .error _ => .error (.error "Network connection closed while waiting for a message")

omit [Crypto] in
theorem Served.Processed.sent_eq {sent : List NetworkMessage} {session : Session} {result : Result ProcessOutcome}
    (processed : Processed sent session result) (ended : session.ended.isSome = true) :
    ∃ replies, session.connection.sent = sent ++ replies ∧ (∀ reply ∈ replies, TcpTransport.Sendable reply) ∧
      answerOf result = okOr replies.head? "Network connection closed while waiting for a message" := by
  cases result with
  | error fault => exact ⟨[], by rw [processed.2, List.append_nil], by simp, rfl⟩
  | ok outcome =>
    obtain ⟨done, actions, sentSoFar⟩ := processed.progress
    rw [processed.finished ended, List.append_nil] at actions
    refine ⟨_, sentSoFar, fun reply member => ?_, by rw [answerOf, actions]⟩
    exact of_decide_eq_true (List.mem_filter.mp member).2

open TcpTransport in
/-- A peer that follows the protocol is answered first. -/
theorem serve_greets (lawful : SignaturesVerify) {fromSlice : Bytes → Except String NetworkMessage}
    (decodes : Decodes fromSlice) {env : ConnectEnvironment} {wallet p2pIdentity : Wallet} {listenAddress : Text}
    (reachable : listenAddress ≠ []) (short : listenAddress.length ≤ maxPeerAddressLength)
    {now now' : SystemTime} (near : Near env.created now) {connection : Connection} (usable : Usable connection)
    {rest : Bytes} (whole : connection.stream.flatten = frame (env.handshake wallet listenAddress) ++ rest)
    (host : Host) (events : List SessionEvent) :
    ∃ more, (serve fromSlice now now' p2pIdentity host connection events).session.connection.sent =
      Network.createHandshakeAck now' p2pIdentity true (hexEncode env.randomBytes.val) :: more := by
  obtain ⟨tail, accepted, _⟩ := acceptHandshake_accepts p2pIdentity now' lawful decodes usable reachable short near
    whole
  rw [serve, accepted]
  exact Served.run_sent _ events

open TcpTransport in
/-- Both sides follow the protocol, their clocks agree, and each receives the bytes that the other has sent:
then the message is sent, and is all that the session begins with to read. -/
theorem serve_told (lawful : SignaturesVerify) {fromSlice : Bytes → Except String NetworkMessage}
    (decodes : Decodes fromSlice) {env : ConnectEnvironment} {wallet p2pIdentity : Wallet} {listenAddress : Text}
    (reachable : listenAddress ≠ []) (short : listenAddress.length ≤ maxPeerAddressLength)
    {now now' : SystemTime} (near : Near env.created now) (near' : Near now' env.validated)
    {message : NetworkMessage} (sendable : Sendable message) {client server : Connection}
    (clientUsable : Usable client) (serverUsable : Usable server) (host : Host) (events : List SessionEvent)
    (toServer : server.stream.flatten =
      (sendAuthenticatedMessage fromSlice env wallet listenAddress message client).2.sent.flatMap frame)
    (toClient : client.stream.flatten =
      (serve fromSlice now now' p2pIdentity host server events).session.connection.sent.flatMap frame) :
    ∃ begun tail,
      (∀ events, serve fromSlice now now' p2pIdentity host server events =
        runFrom (Served.step fromSlice) begun events) ∧
      Served.Waiting message (listenAddress == oneShotClientListenAddress)
        [Network.createHandshakeAck now' p2pIdentity true (hexEncode env.randomBytes.val)] begun.session ∧
      sendAuthenticatedMessage fromSlice env wallet listenAddress message client =
        (.ok (), { client with stream := tail, sent := [env.handshake wallet listenAddress, message] }) ∧
      client.stream.flatten =
        frame (Network.createHandshakeAck now' p2pIdentity true (hexEncode env.randomBytes.val)) ++ tail.flatten := by
  have greeting : Sendable (env.handshake wallet listenAddress) := Network.createHandshake_sendable short
  let ack := Network.createHandshakeAck now' p2pIdentity true (hexEncode env.randomBytes.val)
  have ackSendable : Sendable ack := Network.createHandshakeAck_sendable now' p2pIdentity true
    (isFixedHex_hexEncode env.randomBytes)
  have valid : Network.validateHandshakeAck env.validated ack (hexEncode env.randomBytes.val) = true :=
    (Network.validateHandshakeAck_createHandshakeAck lawful).mpr ⟨rfl, rfl, near'⟩
  -- the client begins with its handshake, so the server accepts it
  obtain ⟨more, first⟩ := sendAuthenticatedMessage_sent fromSlice clientUsable greeting message
  have begins := toServer
  rw [first, List.flatMap_cons] at begins
  obtain ⟨unread, accepted, left⟩ := acceptHandshake_accepts p2pIdentity now' lawful decodes serverUsable
    reachable short near begins
  let begun : Served :=
    { host
      session := Session.start { server with stream := unread, sent := [ack] } (env.handshake wallet listenAddress)
      outgoing := [] }
  have serving : ∀ events, serve fromSlice now now' p2pIdentity host server events =
      runFrom (Served.step fromSlice) begun events := by
    intro events
    rw [serve, accepted]
  -- the server has sent its answer first, so the client sends the message
  obtain ⟨replies, sent⟩ := @Served.run_sent _ fromSlice begun events
  rw [serving, sent, List.flatMap_append] at toClient
  have answered : client.stream.flatten = frame ack ++ replies.flatMap frame := by
    rw [toClient]
    exact congrArg (· ++ replies.flatMap frame) (List.flatMap_singleton frame ack)
  obtain ⟨tail, told, behind⟩ := sendAuthenticatedMessage_answered wallet listenAddress decodes
    clientUsable greeting ackSendable answered valid sendable
  -- so it is what the session still has to read
  rw [told] at first
  have only : more = [message] := (List.cons.inj first).2.symm
  rw [only, List.flatMap_singleton] at left
  refine ⟨begun, tail, serving, ⟨left, serverUsable.writes, rfl, rfl, rfl, rfl, rfl⟩, told, ?_⟩
  rw [answered, behind]

open TcpTransport in
/-- A message over TCP, as a node sends it to each of its peers: it is sent without an error, and the peer
processes it at one step of the session. -/
theorem message_delivered (lawful : SignaturesVerify) {fromSlice : Bytes → Except String NetworkMessage}
    (decodes : Decodes fromSlice) {env : ConnectEnvironment} {wallet p2pIdentity : Wallet} {listenAddress : Text}
    (reachable : listenAddress ≠ []) (short : listenAddress.length ≤ maxPeerAddressLength)
    {now now' : SystemTime} (near : Near env.created now) (near' : Near now' env.validated)
    {message : NetworkMessage} (sendable : Sendable message) {client server : Connection}
    (clientUsable : Usable client) (serverUsable : Usable server) (host : Host) (events : List SessionEvent)
    (toServer : server.stream.flatten =
      (sendAuthenticatedMessage fromSlice env wallet listenAddress message client).2.sent.flatMap frame)
    (toClient : client.stream.flatten =
      (serve fromSlice now now' p2pIdentity host server events).session.connection.sent.flatMap frame)
    (ended : (serve fromSlice now now' p2pIdentity host server events).session.ended.isSome = true) :
    (sendAuthenticatedMessage fromSlice env wallet listenAddress message client).1 = .ok () ∧
      ∃ earlier received produced later, events = earlier ++ .own received produced :: later ∧
        (serve fromSlice now now' p2pIdentity host server (earlier ++ [.own received produced])).host =
          ((serve fromSlice now now' p2pIdentity host server earlier).host.process received produced message
            (listenAddress == oneShotClientListenAddress)).2 := by
  obtain ⟨begun, tail, serving, waiting, told, _⟩ := serve_told lawful decodes reachable short near near'
    sendable clientUsable serverUsable host events toServer toClient
  rw [serving] at ended
  simp only [serving]
  refine ⟨by rw [told], ?_⟩
  rcases Served.run_stage decodes sendable waiting events with
    still | ⟨earlier, received, produced, later, split, _, processed⟩
  · rw [still.running] at ended
    cases ended
  exact ⟨earlier, received, produced, later, split, processed⟩

end

namespace Asking

def host : Host where
  runtime := { node := Fixture.node, validatorIdentity := none, validatorKeystoreLocked := false, chainSyncActive := false }
  network := Network.new
  file := .missing

/-- A connection that is all there. -/
def delivering (bytes : Bytes) : Connection where
  opening := .ok ()
  writes _ := .ok ()
  stream := [bytes]
  sent := []

theorem delivering_usable (bytes : Bytes) : TcpTransport.Usable (delivering bytes) :=
  ⟨rfl, fun _ => rfl, rfl⟩

theorem delivering_stream (bytes : Bytes) : (delivering bytes).stream.flatten = bytes :=
  List.flatten_singleton

def request : NetworkMessage :=
  .accountStateRequest (hexEncode Fixture.senderAddress.val)

def peerAddress : Text :=
  str "127.0.0.1:7001"

/-- All that a client sends on a connection: its handshake and one message. -/
def telling (listenAddress : Text) (message : NetworkMessage) : Bytes :=
  TcpTransport.frame (env.handshake client listenAddress) ++ TcpTransport.frame message

/-- Steps of the session alone. -/
def steps (n : Nat) : List SessionEvent :=
  List.replicate n (.own Fixture.env Fixture.env)

theorem steps_own (n : Nat) : (steps n).countP SessionEvent.isOwn = n := by
  rw [steps, List.countP_replicate]
  rfl

def welcome : NetworkMessage :=
  Network.createHandshakeAck Fixture.now p2pIdentity true (hexEncode env.randomBytes.val)

theorem lawful : SignaturesVerify :=
  CryptoTable.lawful table

theorem near : Near env.created Fixture.now := by
  decide +kernel

theorem oneShot_reachable : oneShotClientListenAddress ≠ [] := by
  decide +kernel

theorem oneShot_short : oneShotClientListenAddress.length ≤ maxPeerAddressLength := by
  decide +kernel

theorem request_sendable : TcpTransport.Sendable request := by
  decide +kernel

section

open TcpTransport
open Fixture (now)

variable {fromSlice : Bytes → Except String NetworkMessage} {listenAddress : Text} {message : NetworkMessage}

/-- The first step of the session takes note of the client, and the second processes its message. -/
theorem told_at_once (decodes : Decodes fromSlice) (reachable : listenAddress ≠ [])
    (short : listenAddress.length ≤ maxPeerAddressLength) (sendable : Sendable message) :
    let noted := host.receiveHandshake (Fixture.env.clock 0) (env.handshake client listenAddress)
    let processed := noted.process Fixture.env Fixture.env message (listenAddress == oneShotClientListenAddress)
    ∃ told : Served, Served.Processed [welcome] told.session processed.1 ∧ told.host = processed.2 ∧
      ∀ n, serve fromSlice now now p2pIdentity host (delivering (telling listenAddress message)) (steps (n + 2)) =
        runFrom (Served.step fromSlice) told (steps n) := by
  intro noted processed
  obtain ⟨tail, accepted, left⟩ := acceptHandshake_accepts p2pIdentity now lawful decodes
    (delivering_usable (telling listenAddress message)) reachable short near (delivering_stream _)
  let greeted : Served :=
    { host := noted
      session :=
        { Session.start { delivering (telling listenAddress message) with stream := tail, sent := [welcome] }
            (env.handshake client listenAddress) with handshake := none }
      outgoing := [] }
  have waiting : Served.Waiting message (listenAddress == oneShotClientListenAddress) [welcome] greeted.session :=
    ⟨left, fun _ => rfl, rfl, rfl, rfl, rfl, rfl⟩
  have read : Served.Processed [welcome] (greeted.proceed fromSlice Fixture.env Fixture.env).session processed.1 ∧
      (greeted.proceed fromSlice Fixture.env Fixture.env).host = processed.2 := waiting.read decodes sendable rfl
  refine ⟨_, read.1, read.2, fun n => ?_⟩
  rw [serve, accepted]
  rfl

/-- The node and its client, each reading what the other writes, until the session has ended. -/
theorem conversation (decodes : Decodes fromSlice) (reachable : listenAddress ≠ [])
    (short : listenAddress.length ≤ maxPeerAddressLength) (sendable : Sendable message) :
    let toServer := telling listenAddress message
    let served := serve fromSlice now now p2pIdentity host (delivering toServer) (steps toServer.length)
    ∃ toClient,
      (delivering toServer).stream.flatten =
        (sendAuthenticatedMessage fromSlice env client listenAddress message
          (delivering toClient)).2.sent.flatMap frame ∧
      (delivering toClient).stream.flatten = served.session.connection.sent.flatMap frame ∧
      served.session.ended.isSome = true := by
  intro toServer served
  refine ⟨served.session.connection.sent.flatMap frame, ?_, delivering_stream _, ?_⟩
  · obtain ⟨more, greeted⟩ : ∃ more, served.session.connection.sent = welcome :: more :=
      serve_greets lawful decodes reachable short near (delivering_usable toServer) (delivering_stream _) host _
    have whole : (delivering (served.session.connection.sent.flatMap frame)).stream.flatten =
        frame welcome ++ more.flatMap frame := by
      rw [delivering_stream, ← List.flatMap_cons]
      exact congrArg (List.flatMap frame) greeted
    obtain ⟨tail, run, _⟩ := sendAuthenticatedMessage_answered client listenAddress decodes
      (delivering_usable _) (Network.createHandshake_sendable short)
      (Network.createHandshakeAck_sendable now p2pIdentity true (isFixedHex_hexEncode env.randomBytes)) whole
      ((Network.validateHandshakeAck_createHandshakeAck lawful).mpr ⟨rfl, rfl, near⟩) sendable
    rw [run, delivering_stream, List.flatMap_cons, List.flatMap_singleton]
    rfl
  · have left := serve_left fromSlice now now p2pIdentity host (delivering toServer) (steps toServer.length)
    rw [steps_own, delivering_stream, Nat.sub_self] at left
    exact Session.ended_of_left (Nat.le_zero.mp left)

end

end Asking

open Asking TcpTransport in
open Fixture (now transfer) in
/-- Another node passes a payment on to the example node, which has it in its pool after the second step. -/
theorem Asking.payment_is_delivered : ∃ fromSlice clientSide serverSide events earlier received produced later,
    (sendAuthenticatedMessage fromSlice env client peerAddress (.transaction transfer) clientSide).1 = .ok () ∧
      events = earlier ++ .own received produced :: later ∧
      (serve fromSlice now now p2pIdentity host serverSide (earlier ++ [.own received produced])).host =
        ((serve fromSlice now now p2pIdentity host serverSide earlier).host.process received produced
          (.transaction transfer) false).2 ∧
      (serve fromSlice now now p2pIdentity host serverSide (steps 2)).host.runtime.node.mempool.transactions =
        [transfer] := by
  obtain ⟨fromSlice, decodes⟩ := exists_decodes
  have reachable : peerAddress ≠ [] := by decide +kernel
  have short : peerAddress.length ≤ maxPeerAddressLength := by decide +kernel
  have tells : Sendable (.transaction transfer) := by decide +kernel
  have known : (peerAddress == oneShotClientListenAddress) = false := by decide +kernel
  obtain ⟨toClient, toServerSent, toClientSent, ended⟩ := conversation decodes reachable short tells
  obtain ⟨sent, earlier, received, produced, later, split, processed⟩ := message_delivered lawful decodes reachable
    short near near tells (delivering_usable toClient) (delivering_usable _) host _ toServerSent toClientSent ended
  obtain ⟨told, _, changed, run⟩ := told_at_once decodes reachable short tells
  rw [known] at processed changed
  refine ⟨fromSlice, delivering toClient, _, _, earlier, received, produced, later, sent, split, processed, ?_⟩
  have second := run 0
  rw [second, steps, List.replicate_zero]
  change told.host.runtime.node.mempool.transactions = [transfer]
  rw [changed]
  decide +kernel

open Asking TcpTransport in
open Fixture (now genesis) in
/-- The session in which the client asks for the balance has sent it when it ends. -/
theorem Asking.asked_session_ends : ∃ fromSlice, Decodes fromSlice ∧ ∃ more,
    let bytes := telling oneShotClientListenAddress request
    let served := serve fromSlice now now p2pIdentity host (delivering bytes) (steps bytes.length)
    served.session.ended.isSome = true ∧
      served.session.connection.sent =
        welcome :: .accountStateResponse (hexEncode Fixture.senderAddress.val) 20000000 0 0 genesis.hash :: more := by
  obtain ⟨fromSlice, decodes⟩ := exists_decodes
  have ended := session_ends fromSlice now now p2pIdentity host
    (delivering (telling oneShotClientListenAddress request))
    (steps (telling oneShotClientListenAddress request).length) (by rw [delivering_stream, steps_own])
  obtain ⟨told, processed, _, run⟩ := told_at_once decodes oneShot_reachable oneShot_short request_sendable
  rw [beq_self_eq_true] at processed
  obtain ⟨n, length⟩ : ∃ n, (telling oneShotClientListenAddress request).length = n + 2 := by
    have frames : 4 ≤ (frame request).length := by
      rw [frame, List.length_append, bigEndian_length]
      exact Nat.le_add_right 4 _
    refine ⟨(telling oneShotClientListenAddress request).length - 2, ?_⟩
    rw [telling, List.length_append]
    omega
  rw [length, run] at ended
  obtain ⟨replies, sent, _, answer⟩ := (processed.run (steps n)).sent_eq ended
  have balance : answerOf ((host.receiveHandshake (Fixture.env.clock 0)
      (env.handshake client oneShotClientListenAddress)).process Fixture.env Fixture.env request true).1 =
        .ok (.accountStateResponse (hexEncode Fixture.senderAddress.val) 20000000 0 0 genesis.hash) := by
    decide +kernel
  cases replies with
  | nil =>
    rw [balance] at answer
    cases answer
  | cons reply more =>
    cases balance.symm.trans answer
    refine ⟨fromSlice, decodes, more, ?_⟩
    dsimp only
    rw [length, run]
    exact ⟨ended, sent⟩

end Kybernetes
