import Kybernetes.Protocol

namespace Kybernetes

/-- The functions the program takes from the `sha2` and `ed25519-dalek` crates. -/
class Crypto where
  sha256 : Bytes → FixedBytes 32
  /-- `SigningKey::verifying_key`, as bytes. -/
  verifyingKey : FixedBytes 32 → FixedBytes 32
  /-- `VerifyingKey::from_bytes` accepts the bytes. -/
  isVerifyingKey : FixedBytes 32 → Bool
  sign : FixedBytes 32 → Bytes → FixedBytes 64
  /-- The signature is one of the message under the key. -/
  verifies : FixedBytes 32 → Bytes → FixedBytes 64 → Bool

/-- The bytes as an array of the given length: `try_into`. -/
def tryIntoFixed (length : Nat) (bytes : Bytes) : Option (FixedBytes length) :=
  if fits : bytes.length = length then some ⟨bytes, fits⟩ else none

variable [Crypto]

/-- What `ed25519-dalek` promises about signatures: the key of a signer is
a valid key, and what the signer signs verifies under it. -/
structure SignaturesVerify : Prop where
  key_valid : ∀ signingKey, Crypto.isVerifyingKey (Crypto.verifyingKey signingKey) = true
  signed_verifies : ∀ signingKey message,
    Crypto.verifies (Crypto.verifyingKey signingKey) message (Crypto.sign signingKey message) = true

/-- SHA-256 has no collision among the given inputs. -/
def CollisionFree (inputs : Set Bytes) : Prop :=
  ∀ a ∈ inputs, ∀ b ∈ inputs, Crypto.sha256 a = Crypto.sha256 b → a = b

theorem CollisionFree.mono {smaller inputs : Set Bytes} (free : CollisionFree inputs)
    (sub : smaller ⊆ inputs) : CollisionFree smaller :=
  fun a memA b memB => free a (sub memA) b (sub memB)

theorem CollisionFree.of_subsingleton {inputs : Set Bytes} (single : inputs.Subsingleton) :
    CollisionFree inputs :=
  fun _ memA _ memB _ => single memA memB

/-- `format!("{:x}", Sha256::digest(data))`. -/
def sha256Hex (data : Bytes) : Text :=
  hexEncode (Crypto.sha256 data).val

/-- `Wallet::address_from_public_key_bytes`. -/
def Wallet.addressFromPublicKeyBytes (publicKeyBytes : FixedBytes 32) : Text :=
  sha256Hex publicKeyBytes.val

/-- The fields are private in the source and every wallet is built by
`from_signing_key`, so the last two follow from the first. -/
structure Wallet where
  signingKey : FixedBytes 32
  verifyingKey : FixedBytes 32
  address : Text
  verifyingKey_eq : verifyingKey = Crypto.verifyingKey signingKey
  address_eq : address = Wallet.addressFromPublicKeyBytes verifyingKey

namespace Wallet

def fromSigningKey (signingKey : FixedBytes 32) : Wallet where
  signingKey := signingKey
  verifyingKey := Crypto.verifyingKey signingKey
  address := addressFromPublicKeyBytes (Crypto.verifyingKey signingKey)
  verifyingKey_eq := rfl
  address_eq := rfl

def publicKeyHex (self : Wallet) : Text :=
  hexEncode self.verifyingKey.val

def sign (self : Wallet) (message : Bytes) : Text :=
  hexEncode (Crypto.sign self.signingKey message).val

def addressFromPublicKey (publicKeyHex : Text) : Option Text := do
  let publicKeyBytes ← hexDecode publicKeyHex
  let publicKeyArray ← tryIntoFixed 32 publicKeyBytes
  if Crypto.isVerifyingKey publicKeyArray then some (addressFromPublicKeyBytes publicKeyArray) else none

def verify (publicKeyHex : Text) (message : Bytes) (signatureHex : Text) : Bool :=
  match hexDecode publicKeyHex with
  | none => false
  | some publicKeyBytes =>
    match hexDecode signatureHex with
    | none => false
    | some signatureBytes =>
      match tryIntoFixed 32 publicKeyBytes with
      | none => false
      | some publicKeyArray =>
        match tryIntoFixed 64 signatureBytes with
        | none => false
        | some signatureArray =>
          if Crypto.isVerifyingKey publicKeyArray then
            Crypto.verifies publicKeyArray message signatureArray
          else false

end Wallet

omit [Crypto] in
theorem tryIntoFixed_val {length : Nat} (bytes : FixedBytes length) :
    tryIntoFixed length bytes.val = some bytes := by
  simp [tryIntoFixed, bytes.property]

omit [Crypto] in
theorem tryIntoFixed_eq_some {length : Nat} {bytes : Bytes} {fixed : FixedBytes length} :
    tryIntoFixed length bytes = some fixed ↔ fixed.val = bytes := by
  rw [tryIntoFixed]
  by_cases fits : bytes.length = length
  · rw [dif_pos fits, Option.some.injEq, Subtype.ext_iff, eq_comm]
  · rw [dif_neg fits]
    constructor
    · intro none
      cases none
    · rintro rfl
      exact absurd fixed.property fits

theorem isFixedHex_sha256Hex (data : Bytes) : isFixedHex (sha256Hex data) 64 = true :=
  isFixedHex_hexEncode (Crypto.sha256 data)

theorem sha256Hex_inj {inputs : Set Bytes} (free : CollisionFree inputs) {a b : Bytes}
    (memA : a ∈ inputs) (memB : b ∈ inputs) (same : sha256Hex a = sha256Hex b) : a = b :=
  free a memA b memB (Subtype.ext (hexEncode_inj same))

theorem Wallet.publicKeyHex_fixed (wallet : Wallet) :
    isFixedHex wallet.publicKeyHex publicKeyHexLength = true :=
  isFixedHex_hexEncode wallet.verifyingKey

theorem Wallet.address_fixed (wallet : Wallet) : isFixedHex wallet.address addressHexLength = true := by
  rw [wallet.address_eq]
  exact isFixedHex_sha256Hex _

theorem Wallet.sign_fixed (wallet : Wallet) (message : Bytes) :
    isFixedHex (wallet.sign message) signatureHexLength = true :=
  isFixedHex_hexEncode (Crypto.sign wallet.signingKey message)

theorem Wallet.addressFromPublicKey_publicKeyHex (lawful : SignaturesVerify) (wallet : Wallet) :
    Wallet.addressFromPublicKey wallet.publicKeyHex = some wallet.address := by
  simp only [addressFromPublicKey, publicKeyHex, hexDecode_hexEncode, tryIntoFixed_val, Option.bind_eq_bind,
    Option.bind_some, wallet.address_eq]
  rw [wallet.verifyingKey_eq, lawful.key_valid, if_pos rfl]

theorem Wallet.verify_sign (lawful : SignaturesVerify) (wallet : Wallet) (message : Bytes) :
    Wallet.verify wallet.publicKeyHex message (wallet.sign message) = true := by
  simp only [verify, publicKeyHex, sign, hexDecode_hexEncode, tryIntoFixed_val]
  rw [wallet.verifyingKey_eq, lawful.key_valid, if_pos rfl]
  exact lawful.signed_verifies _ _

/-- An address derived from a key names the decoded key bytes. -/
theorem Wallet.addressFromPublicKey_eq_some {publicKeyHex address : Text}
    (derived : Wallet.addressFromPublicKey publicKeyHex = some address) :
    ∃ key : FixedBytes 32, hexDecode publicKeyHex = some key.val ∧ address = sha256Hex key.val := by
  simp only [addressFromPublicKey, Option.bind_eq_bind, Option.bind_eq_some_iff] at derived
  obtain ⟨bytes, decoded, key, fits, rest⟩ := derived
  unfold tryIntoFixed at fits
  split at fits
  · cases fits
    split at rest
    · cases rest
      exact ⟨_, decoded, rfl⟩
    · simp at rest
  · simp at fits

/-- The two crates on finitely many known values: digests, the key pairs and
the signatures of messages under them. -/
structure CryptoTable where
  digests : List (Bytes × FixedBytes 32)
  keys : List (FixedBytes 32 × FixedBytes 32)
  signatures : List (FixedBytes 32 × Bytes × FixedBytes 64)

def fixedOfNat (length n : Nat) : FixedBytes length :=
  ⟨bigEndian length n, bigEndian_length length n⟩

namespace CryptoTable

def signatureOf (table : CryptoTable) (key : FixedBytes 32) (message : Bytes) : FixedBytes 64 :=
  match table.signatures.find? fun entry => entry.1 == key && entry.2.1 == message with
  | some entry => entry.2.2
  | none => fixedOfNat 64 0

/-- Values outside the table are all zero. -/
@[reducible] def crypto (table : CryptoTable) : Crypto where
  sha256 data := (table.digests.lookup data).getD (fixedOfNat 32 0)
  verifyingKey signingKey := (table.keys.lookup signingKey).getD (fixedOfNat 32 0)
  isVerifyingKey _ := true
  sign signingKey message :=
    table.signatureOf ((table.keys.lookup signingKey).getD (fixedOfNat 32 0)) message
  verifies key message signature := signature == table.signatureOf key message

omit [Crypto] in
theorem lawful (table : CryptoTable) : @SignaturesVerify table.crypto :=
  @SignaturesVerify.mk table.crypto (fun _ => rfl) fun _ _ => beq_self_eq_true _

end CryptoTable

end Kybernetes
