import Kybernetes.Base.Stream
import Kybernetes.Network

namespace Kybernetes

namespace TcpTransport

/-- `read_message_or_eof`, on a stream given by the pieces it still delivers.
`fromSlice` is `serde_json::from_slice`. No read takes so long that it is timed
out. -/
def readMessageOrEof (fromSlice : Bytes → Except String NetworkMessage) (stream : List Bytes) :
    Result (Option NetworkMessage) × List Bytes :=
  let first := readSome 1 stream
  if first.1 = [] then (.ok none, first.2)
  else
    match readExact 3 first.2 with
    | (none, stream) => (.error (.error "Network message header could not be read: early eof"), stream)
    | (some rest, stream) =>
      let payloadLength := fromBigEndian (first.1 ++ rest)
      if payloadLength = 0 then (.error (.error "Empty network message was rejected"), stream)
      else if maxNetworkMessageBytes < payloadLength then
        (.error (.error "Network message byte limit exceeded"), stream)
      else
        match readExact payloadLength stream with
        | (none, stream) => (.error (.error "Network message could not be read: early eof"), stream)
        | (some payload, stream) =>
          match fromSlice payload with
          | .error error => (.error (.error ("Network message JSON format is invalid: " ++ error)), stream)
          | .ok message => (.ok (some message), stream)

/-- What so many calls of `read_message_or_eof` return. -/
def readMessages (fromSlice : Bytes → Except String NetworkMessage) :
    Nat → List Bytes → List (Result (Option NetworkMessage))
  | 0, _ => []
  | calls + 1, stream =>
    (readMessageOrEof fromSlice stream).1 :: readMessages fromSlice calls (readMessageOrEof fromSlice stream).2

/-- What successive calls of `send_message` write. -/
def sendMessages (messages : List NetworkMessage) : Result Bytes :=
  messages.foldlM (fun written message => do
    let frame ← sendMessage message
    return written ++ frame) []

def frame (message : NetworkMessage) : Bytes :=
  bigEndian 4 message.json.length ++ message.json

/-- What a reader says of a stream that ends after so many bytes of a frame. -/
def cutFault (cut : Nat) : Fault :=
  if cut < 4 then .error "Network message header could not be read: early eof"
  else .error "Network message could not be read: early eof"

/-- A message that `send_message` accepts and its reader too. -/
def Sendable (message : NetworkMessage) : Prop :=
  1 ≤ message.json.length ∧ message.json.length ≤ maxNetworkMessageBytes

instance (message : NetworkMessage) : Decidable (Sendable message) :=
  inferInstanceAs (Decidable (_ ∧ _))

theorem sendMessage_eq_ok {message : NetworkMessage} {written : Bytes} :
    sendMessage message = .ok written ↔ Sendable message ∧ written = frame message := by
  have limit : maxNetworkMessageBytes < 2 ^ 32 := by decide
  simp only [sendMessage, bind_eq_ok, rejectIf_eq_ok, pure_eq_ok, Sendable, frame, ← List.length_pos_iff]
  constructor
  · rintro ⟨_, nonempty, _, within, _, _, rfl⟩
    exact ⟨⟨by omega, by omega⟩, rfl⟩
  · rintro ⟨⟨nonempty, within⟩, rfl⟩
    exact ⟨(), by omega, (), by omega, (), by omega, rfl⟩

theorem sendMessages_eq_ok {messages : List NetworkMessage} {written : Bytes} :
    sendMessages messages = .ok written ↔
      (∀ message ∈ messages, Sendable message) ∧ written = messages.flatMap frame := by
  have step : ∀ (written : Bytes) (message : NetworkMessage) (after : Bytes),
      ((do
        let frame ← sendMessage message
        return written ++ frame) : Result Bytes) = .ok after ↔
      Sendable message ∧ after = written ++ frame message := by
    intro written message after
    simp only [bind_eq_ok, sendMessage_eq_ok, pure_eq_ok]
    constructor
    · rintro ⟨_, ⟨sendable, rfl⟩, rfl⟩
      exact ⟨sendable, rfl⟩
    · rintro ⟨sendable, rfl⟩
      exact ⟨_, ⟨sendable, rfl⟩, rfl⟩
  rw [sendMessages, foldlM_update_eq_ok step, List.foldl_append_eq_append, List.nil_append, List.flatMap_def]

section

variable {fromSlice : Bytes → Except String NetworkMessage} {stream : List Bytes} {message : NetworkMessage}

variable (fromSlice) in
theorem readMessageOrEof_end (ended : stream.flatten = []) :
    ∃ tail, readMessageOrEof fromSlice stream = (.ok none, tail) ∧ tail.flatten = [] := by
  have nothing : (readSome 1 stream).1 = [] := (readSome_eq_nil Nat.one_pos).mpr ended
  have rest := readSome_append 1 stream
  rw [nothing, List.nil_append, ended] at rest
  refine ⟨_, ?_, rest⟩
  rw [readMessageOrEof, if_pos nothing]

/-- The first byte of a header, which is read by itself, and the other three. -/
theorem header_eq (message : NetworkMessage) :
    ∃ byte bytes, bigEndian 4 message.json.length = byte :: bytes ∧ bytes.length = 3 := by
  have length := bigEndian_length 4 message.json.length
  cases header : bigEndian 4 message.json.length with
  | nil =>
    rw [header] at length
    cases length
  | cons byte bytes =>
    rw [header, List.length_cons] at length
    exact ⟨byte, bytes, rfl, by omega⟩

theorem header_value {byte : UInt8} {bytes : Bytes} (sendable : Sendable message)
    (header : bigEndian 4 message.json.length = byte :: bytes) :
    fromBigEndian ([byte] ++ bytes) = message.json.length := by
  have limit : maxNetworkMessageBytes < 256 ^ 4 := by decide
  rw [List.singleton_append, ← header]
  exact fromBigEndian_bigEndian (lt_of_le_of_lt sendable.2 limit)

/-- A frame is read whole and nothing that follows it, however it arrives. -/
theorem readMessageOrEof_frame {rest : Bytes} (sendable : Sendable message)
    (inverts : fromSlice message.json = .ok message) (whole : stream.flatten = frame message ++ rest) :
    ∃ tail, readMessageOrEof fromSlice stream = (.ok (some message), tail) ∧ tail.flatten = rest := by
  obtain ⟨byte, bytes, header, three⟩ := header_eq message
  have value := header_value sendable header
  rw [frame, header, List.cons_append, List.cons_append, List.append_assoc] at whole
  obtain ⟨afterFirst, first, whole⟩ := readSome_one whole
  obtain ⟨afterHeader, second, whole⟩ := readExact_append whole three
  obtain ⟨tail, payload, whole⟩ := readExact_append whole rfl
  obtain ⟨nonempty, within⟩ := sendable
  refine ⟨tail, ?_, whole⟩
  simp only [readMessageOrEof, first, second, value, payload, inverts]
  rw [if_neg (by simp), if_neg (by omega), if_neg (by omega)]

variable (fromSlice) in
/-- A part of a frame is an error: the stream ends in the header or in the
payload. -/
theorem readMessageOrEof_part {cut : Nat} (sendable : Sendable message) (begun : 0 < cut)
    (inside : cut < (frame message).length) (part : stream.flatten = (frame message).take cut) :
    ∃ tail, readMessageOrEof fromSlice stream = (.error (cutFault cut), tail) := by
  obtain ⟨byte, bytes, header, three⟩ := header_eq message
  have value := header_value sendable header
  rw [frame, header, List.length_append, List.length_cons, three] at inside
  rw [frame, header, List.cons_append] at part
  obtain ⟨cut, rfl⟩ := Nat.exists_eq_add_of_lt begun
  rw [show 0 + cut + 1 = cut + 1 by omega, List.take_succ_cons] at part
  obtain ⟨afterFirst, first, part⟩ := readSome_one part
  by_cases inHeader : cut < 3
  · have short : afterFirst.flatten.length < 3 := by
      rw [part, List.length_take]
      omega
    obtain ⟨tail, second⟩ := readExact_short short
    refine ⟨tail, ?_⟩
    rw [cutFault, if_pos (by omega)]
    simp only [readMessageOrEof, first, second]
    rw [if_neg (by simp)]
  · rw [List.take_append, List.take_of_length_le (by omega)] at part
    obtain ⟨afterHeader, second, part⟩ := readExact_append part three
    have short : afterHeader.flatten.length < message.json.length := by
      rw [part, List.length_take]
      omega
    obtain ⟨tail, payload⟩ := readExact_short short
    obtain ⟨nonempty, within⟩ := sendable
    refine ⟨tail, ?_⟩
    rw [cutFault, if_neg (by omega)]
    simp only [readMessageOrEof, first, second, value, payload]
    rw [if_neg (by simp), if_neg (by omega), if_neg (by omega)]

/-- The calls that read whole frames leave what follows them to the next. -/
theorem readMessages_append {messages : List NetworkMessage} {rest : Bytes} (calls : Nat)
    (sendable : ∀ message ∈ messages, Sendable message)
    (inverts : ∀ message ∈ messages, fromSlice message.json = .ok message)
    (whole : stream.flatten = messages.flatMap frame ++ rest) :
    ∃ tail, tail.flatten = rest ∧ readMessages fromSlice (messages.length + calls) stream =
      (messages.map fun message => .ok (some message)) ++ readMessages fromSlice calls tail := by
  induction messages generalizing stream with
  | nil =>
    refine ⟨stream, whole, ?_⟩
    rw [List.length_nil, Nat.zero_add, List.map_nil, List.nil_append]
  | cons message messages ih =>
    rw [List.flatMap_cons, List.append_assoc] at whole
    obtain ⟨next, first, whole⟩ :=
      readMessageOrEof_frame (sendable message (by simp)) (inverts message (by simp)) whole
    obtain ⟨tail, left, later⟩ := ih (fun m member => sendable m (by simp [member]))
      (fun m member => inverts m (by simp [member])) whole
    refine ⟨tail, left, ?_⟩
    rw [List.length_cons, show messages.length + 1 + calls = messages.length + calls + 1 by omega, readMessages,
      first, later, List.map_cons, List.cons_append]

theorem readMessages_end {calls : Nat} (ended : stream.flatten = []) :
    readMessages fromSlice calls stream = List.replicate calls (.ok none) := by
  induction calls generalizing stream with
  | zero => rfl
  | succ calls ih =>
    obtain ⟨tail, nothing, still⟩ := readMessageOrEof_end fromSlice ended
    rw [readMessages, nothing, ih still, List.replicate_succ]

end

/-- What was sent is read back in order and then the end, in whatever pieces
the stream delivers it; and when the stream breaks off inside a frame, the
frames before it are read back and then an error. -/
theorem readMessages_sendMessages {fromSlice : Bytes → Except String NetworkMessage}
    {messages : List NetworkMessage} (sendable : ∀ message ∈ messages, Sendable message)
    (inverts : ∀ message ∈ messages, fromSlice message.json = .ok message) :
    ∃ written, sendMessages messages = .ok written ∧
      (∀ pieces : List Bytes, pieces.flatten = written → ∀ calls,
        readMessages fromSlice (messages.length + calls) pieces =
          (messages.map fun message => .ok (some message)) ++ List.replicate calls (.ok none)) ∧
      ∀ before message after, messages = before ++ message :: after →
        ∀ cut, 0 < cut → cut < (frame message).length →
        ∀ pieces : List Bytes, pieces.flatten = written.take ((before.flatMap frame).length + cut) →
          readMessages fromSlice (before.length + 1) pieces =
            (before.map fun message => .ok (some message)) ++ [.error (cutFault cut)] := by
  refine ⟨messages.flatMap frame, sendMessages_eq_ok.mpr ⟨sendable, rfl⟩, ?_, ?_⟩
  · intro pieces whole calls
    rw [← List.append_nil (messages.flatMap frame)] at whole
    obtain ⟨tail, ended, read⟩ := readMessages_append calls sendable inverts whole
    rw [read, readMessages_end ended]
  · rintro before message after rfl cut begun inside pieces part
    rw [List.flatMap_append, List.take_length_add_append, List.flatMap_cons,
      List.take_append_of_le_length inside.le] at part
    obtain ⟨tail, left, read⟩ := readMessages_append 1 (fun m member => sendable m (by simp [member]))
      (fun m member => inverts m (by simp [member])) part
    obtain ⟨_, broken⟩ := readMessageOrEof_part fromSlice (sendable message (by simp)) begun inside left
    rw [read, readMessages, readMessages, broken]

end TcpTransport

namespace Fixture

def requests : List NetworkMessage :=
  [.syncRequest, .chainChunkRequest 5]

/-- What `serde_json` reads from the JSON of the two requests. -/
def fromSlice (payload : Bytes) : Except String NetworkMessage :=
  if payload = NetworkMessage.syncRequest.json then .ok .syncRequest
  else if payload = (NetworkMessage.chainChunkRequest 5).json then .ok (.chainChunkRequest 5)
  else .error "expected value at line 1 column 1"

end Fixture

open TcpTransport in
/-- Two requests that arrive byte by byte, and of which three bytes of the
second frame arrive. -/
theorem Fixture.requests_are_read : ∃ written, sendMessages requests = .ok written ∧
    readMessages fromSlice 3 (written.map fun byte => [byte]) =
      [.ok (some .syncRequest), .ok (some (.chainChunkRequest 5)), .ok none] ∧
    readMessages fromSlice 2 [written.take 20] = [.ok (some .syncRequest), .error (cutFault 3)] := by
  have sendable : ∀ message ∈ requests, Sendable message := by decide +kernel
  have inverts : ∀ message ∈ requests, fromSlice message.json = .ok message := by decide +kernel
  obtain ⟨written, sent, whole, part⟩ := readMessages_sendMessages sendable inverts
  have bytewise : (written.map fun byte => [byte]).flatten = written := by
    rw [← List.flatMap_def, List.flatMap_singleton']
  have length : ([NetworkMessage.syncRequest].flatMap frame).length = 17 := by decide +kernel
  have twenty :
      [written.take 20].flatten = written.take (([NetworkMessage.syncRequest].flatMap frame).length + 3) := by
    rw [length, List.flatten_singleton]
  refine ⟨written, sent, whole _ bytewise 1, ?_⟩
  exact part [.syncRequest] (.chainChunkRequest 5) [] rfl 3 (by decide) (by decide +kernel) _ twenty

end Kybernetes
