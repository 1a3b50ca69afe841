import Kybernetes.FrameStreams

namespace Kybernetes

namespace TcpTransport

/-- A payload as `read_message` takes it: not empty, within the limit, and the JSON of a message. -/
structure Payload (fromSlice : Bytes → Except String NetworkMessage) (message : NetworkMessage) (payload : Bytes) :
    Prop where
  nonempty : payload ≠ []
  within : payload.length ≤ maxNetworkMessageBytes
  decodes : fromSlice payload = .ok message

/-- The bytes of a payload with its length in front. -/
def framed (payload : Bytes) : Bytes :=
  bigEndian 4 payload.length ++ payload

section

variable {fromSlice : Bytes → Except String NetworkMessage} {stream : List Bytes} {message : NetworkMessage}

/-- Four bytes are the big-endian form of their value. -/
theorem bigEndian_fromBigEndian_four {bytes : Bytes} (four : bytes.length = 4) :
    bigEndian 4 (fromBigEndian bytes) = bytes := by
  match bytes, four with
  | [a, b, c, d], _ =>
    have low : ∀ n (byte : UInt8), UInt8.ofNat (n * 256 + byte.toNat) = byte := by
      intro n byte
      apply UInt8.toNat_inj.mp
      have small := byte.toNat_lt
      rw [UInt8.toNat_ofNat']
      omega
    have high : ∀ n (byte : UInt8), (n * 256 + byte.toNat) / 256 = n := by
      intro n byte
      have small := byte.toNat_lt
      omega
    simp only [fromBigEndian, List.foldl_cons, List.foldl_nil, bigEndian, high, low, List.nil_append,
      List.cons_append]

/-- A message is read off a frame at the front of the stream, and no other way. -/
theorem readMessageOrEof_eq_some {tail : List Bytes}
    (read : readMessageOrEof fromSlice stream = (.ok (some message), tail)) :
    ∃ payload, Payload fromSlice message payload ∧ stream.flatten = framed payload ++ tail.flatten := by
  unfold readMessageOrEof at read
  have whole := readSome_append 1 stream
  have short := readSome_length 1 stream
  dsimp only at read
  split at read
  · cases read
  rename_i more
  have one : (readSome 1 stream).1.length = 1 := by
    have positive := List.length_pos_of_ne_nil more
    omega
  split at read
  · cases read
  rename_i rest behind header
  obtain ⟨three, afterFirst⟩ := readExact_some header
  split at read
  · cases read
  rename_i nonzero
  split at read
  · cases read
  rename_i within
  split at read
  · cases read
  rename_i payload left body
  obtain ⟨size, afterHeader⟩ := readExact_some body
  split at read
  · cases read
  rename_i taken decoded
  rw [Prod.mk.injEq, Except.ok.injEq, Option.some.injEq] at read
  obtain ⟨rfl, rfl⟩ := read
  refine ⟨payload, ⟨?_, ?_, decoded⟩, ?_⟩
  · rintro rfl
    exact nonzero size.symm
  · rw [size]
    exact Nat.not_lt.mp within
  · have four : ((readSome 1 stream).1 ++ rest).length = 4 := by
      rw [List.length_append, one, three]
    rw [framed, size, bigEndian_fromBigEndian_four four, ← whole, afterFirst, afterHeader]
    simp only [List.append_assoc]

theorem readMessageOrEof_shortens {tail : List Bytes}
    (read : readMessageOrEof fromSlice stream = (.ok (some message), tail)) :
    tail.flatten.length + 5 ≤ stream.flatten.length := by
  obtain ⟨payload, taken, whole⟩ := readMessageOrEof_eq_some read
  have positive := List.length_pos_of_ne_nil taken.nonempty
  rw [whole, framed, List.length_append, List.length_append, bigEndian_length]
  omega

end

/-- The stream behind so many calls of `read_message_or_eof`. -/
def readAfter (fromSlice : Bytes → Except String NetworkMessage) : Nat → List Bytes → List Bytes
  | 0, stream => stream
  | calls + 1, stream => readAfter fromSlice calls (readMessageOrEof fromSlice stream).2

/-- Messages are accepted for well-formed frames only: when successive calls return messages, the
stream began with a frame of each of them, in order, and the next call starts behind the last. -/
theorem readMessages_sound {fromSlice : Bytes → Except String NetworkMessage} {messages : List NetworkMessage}
    {stream : List Bytes}
    (read : readMessages fromSlice messages.length stream = messages.map fun message => .ok (some message)) :
    ∃ payloads : List Bytes, List.Forall₂ (Payload fromSlice) messages payloads ∧
      stream.flatten = payloads.flatMap framed ++ (readAfter fromSlice messages.length stream).flatten := by
  induction messages generalizing stream with
  | nil => exact ⟨[], .nil, rfl⟩
  | cons message messages ih =>
    rw [List.length_cons, readMessages, List.map_cons, List.cons.injEq] at read
    obtain ⟨first, later⟩ := read
    have run : readMessageOrEof fromSlice stream =
        (.ok (some message), (readMessageOrEof fromSlice stream).2) := Prod.ext first rfl
    obtain ⟨payload, taken, front⟩ := readMessageOrEof_eq_some run
    obtain ⟨payloads, rest, behind⟩ := ih later
    refine ⟨payload :: payloads, .cons taken rest, ?_⟩
    rw [List.flatMap_cons, List.append_assoc, front, behind]
    rfl

end TcpTransport

open TcpTransport in
/-- A request that arrives in two pieces was a frame. -/
theorem Fixture.split_request_is_framed : ∃ payloads : List Bytes,
    List.Forall₂ (Payload fromSlice) [.syncRequest] payloads ∧
      [(frame .syncRequest).take 3, (frame .syncRequest).drop 3].flatten = payloads.flatMap framed ++
        (readAfter fromSlice 1 [(frame .syncRequest).take 3, (frame .syncRequest).drop 3]).flatten := by
  have whole : [(frame .syncRequest).take 3, (frame .syncRequest).drop 3].flatten = frame .syncRequest ++ [] := by
    decide +kernel
  have sendable : Sendable .syncRequest := by decide +kernel
  obtain ⟨tail, run, _⟩ := readMessageOrEof_frame sendable (by decide +kernel : fromSlice _ = _) whole
  have read : readMessages fromSlice 1 [(frame .syncRequest).take 3, (frame .syncRequest).drop 3] =
      [.ok (some .syncRequest)] := by
    rw [readMessages, run, readMessages]
  exact @readMessages_sound fromSlice [.syncRequest] _ read

end Kybernetes
