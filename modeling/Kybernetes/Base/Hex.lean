import Kybernetes.Base.Codec

namespace Kybernetes

/-- `hex::encode` of one half byte. -/
def hexDigit (nibble : UInt8) : UInt8 :=
  if nibble < 10 then 48 + nibble else 87 + nibble

/-- `hex::encode`: two lowercase digits for each byte. -/
def hexEncode (bytes : Bytes) : Bytes :=
  bytes.flatMap fun byte => [hexDigit (byte / 16), hexDigit (byte % 16)]

/-- The half byte of one digit, of either case. -/
def hexValue (digit : UInt8) : Option UInt8 :=
  if 48 ≤ digit ∧ digit ≤ 57 then some (digit - 48)
  else if 65 ≤ digit ∧ digit ≤ 70 then some (digit - 55)
  else if 97 ≤ digit ∧ digit ≤ 102 then some (digit - 87)
  else none

/-- `hex::decode`, with every error as `none`. -/
def hexDecode : Bytes → Option Bytes
  | [] => some []
  | [_] => none
  | high :: low :: rest => do
    let h ← hexValue high
    let l ← hexValue low
    let bytes ← hexDecode rest
    some ((h * 16 + l) :: bytes)

/-- `u8::is_ascii_hexdigit`. -/
def isHexDigit (byte : UInt8) : Bool :=
  (hexValue byte).isSome

theorem forall_byte {P : UInt8 → Prop} (each : ∀ n < 256, P (UInt8.ofNat n)) (byte : UInt8) : P byte := by
  have byteEach := each byte.toNat byte.toNat_lt
  rwa [UInt8.ofNat_toNat] at byteEach

theorem hexValue_hexDigit : ∀ nibble : UInt8, nibble < 16 → hexValue (hexDigit nibble) = some nibble :=
  forall_byte (by decide +kernel)

theorem nibbles_join : ∀ byte : UInt8, byte / 16 * 16 + byte % 16 = byte :=
  forall_byte (by decide +kernel)

theorem nibbles_lt : ∀ byte : UInt8, byte / 16 < 16 ∧ byte % 16 < 16 :=
  forall_byte (by decide +kernel)

theorem hexEncode_length (bytes : Bytes) : (hexEncode bytes).length = 2 * bytes.length := by
  induction bytes with
  | nil => rfl
  | cons byte bytes ih =>
    simp only [hexEncode, List.flatMap_cons, List.length_append, List.length_cons, List.length_nil] at ih ⊢
    omega

theorem hexDecode_hexEncode (bytes : Bytes) : hexDecode (hexEncode bytes) = some bytes := by
  induction bytes with
  | nil => rfl
  | cons byte bytes ih =>
    obtain ⟨high, low⟩ := nibbles_lt byte
    simp only [hexEncode, List.flatMap_cons, List.cons_append, List.nil_append] at ih ⊢
    simp only [hexDecode, hexValue_hexDigit _ high, hexValue_hexDigit _ low, ih, Option.bind_eq_bind,
      Option.bind_some, nibbles_join]

theorem hexDecode_length {text bytes : Bytes} (decoded : hexDecode text = some bytes) :
    text.length = 2 * bytes.length := by
  induction text using hexDecode.induct generalizing bytes with
  | case1 =>
    cases decoded
    rfl
  | case2 => cases decoded
  | case3 high low rest ih =>
    simp only [hexDecode, Option.bind_eq_bind, Option.bind_eq_some_iff, Option.some.injEq] at decoded
    obtain ⟨_, _, _, _, behind, after, rfl⟩ := decoded
    have shorter := ih after
    simp only [List.length_cons]
    omega

theorem hexEncode_inj {a b : Bytes} (same : hexEncode a = hexEncode b) : a = b := by
  have decoded := congrArg hexDecode same
  simpa only [hexDecode_hexEncode, Option.some.injEq] using decoded

theorem hexEncode_isHexDigit {bytes : Bytes} {digit : UInt8} (member : digit ∈ hexEncode bytes) :
    isHexDigit digit = true := by
  obtain ⟨byte, _, which⟩ := List.mem_flatMap.mp member
  obtain ⟨high, low⟩ := nibbles_lt byte
  simp only [List.mem_cons, List.not_mem_nil, or_false] at which
  rcases which with rfl | rfl
  · rw [isHexDigit, hexValue_hexDigit _ high]; rfl
  · rw [isHexDigit, hexValue_hexDigit _ low]; rfl

end Kybernetes
