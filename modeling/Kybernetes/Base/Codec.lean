import Mathlib.Data.Set.Basic
import Mathlib.Tactic.Common
import Mathlib.Tactic.Ring

namespace Kybernetes

abbrev Bytes := List UInt8

/-- Byte strings of one fixed length. -/
abbrev FixedBytes (length : Nat) := { bytes : Bytes // bytes.length = length }

/-- `to_be_bytes` of a number that is stored in `width` bytes. -/
def bigEndian : Nat → Nat → Bytes
  | 0, _ => []
  | width + 1, n => bigEndian width (n / 256) ++ [UInt8.ofNat n]

/-- `from_be_bytes` of a number of any width. -/
def fromBigEndian (bytes : Bytes) : Nat :=
  bytes.foldl (fun n byte => n * 256 + byte.toNat) 0

/-- A value that says its own length in eight bytes. -/
def lengthPrefixed (value : Bytes) : Bytes :=
  bigEndian 8 value.length ++ value

/-- Whatever follows an encoding, both the encoded value and the rest can be
read back. This is what composes: an encoding of a record is the
concatenation of the encodings of its fields. -/
def Unambiguous {α : Type} (domain : Set α) (encode : α → Bytes) : Prop :=
  ∀ a ∈ domain, ∀ b ∈ domain, ∀ r s, encode a ++ r = encode b ++ s → a = b ∧ r = s

theorem bigEndian_length (width n : Nat) : (bigEndian width n).length = width := by
  induction width generalizing n with
  | zero => rfl
  | succ width ih => simp [bigEndian, ih]

theorem bigEndian_inj {width n m : Nat} (boundN : n < 256 ^ width) (boundM : m < 256 ^ width)
    (same : bigEndian width n = bigEndian width m) : n = m := by
  induction width generalizing n m with
  | zero => omega
  | succ width ih =>
    simp only [bigEndian] at same
    obtain ⟨high, low⟩ := List.append_inj same (by simp [bigEndian_length])
    have quotient := ih (by rw [Nat.pow_succ] at boundN; omega) (by rw [Nat.pow_succ] at boundM; omega) high
    have remainder : n % 256 = m % 256 := by
      have value := congrArg UInt8.toNat (List.singleton_inj.mp low)
      simpa only [UInt8.toNat_ofNat'] using value
    omega

theorem fromBigEndian_bigEndian {width n : Nat} (bound : n < 256 ^ width) :
    fromBigEndian (bigEndian width n) = n := by
  induction width generalizing n with
  | zero =>
    have zero : n = 0 := by omega
    rw [zero]
    rfl
  | succ width ih =>
    have high := ih (show n / 256 < 256 ^ width by rw [Nat.pow_succ] at bound; omega)
    unfold fromBigEndian at high ⊢
    rw [bigEndian, List.foldl_append, high, List.foldl_cons, List.foldl_nil, UInt8.toNat_ofNat']
    omega

section Unambiguous

variable {α : Type} {domain : Set α} {encode : α → Bytes}

theorem unambiguous_of_length {width : Nat} (length : ∀ a, (encode a).length = width)
    (inj : ∀ a ∈ domain, ∀ b ∈ domain, encode a = encode b → a = b) : Unambiguous domain encode := by
  intro a memA b memB r s same
  obtain ⟨first, rest⟩ := List.append_inj same (by rw [length, length])
  exact ⟨inj a memA b memB first, rest⟩

/-- Two lists of one announced length can be told apart element by element. -/
theorem Unambiguous.flatMap (unambiguous : Unambiguous domain encode) {xs ys : List α} {r s : Bytes}
    (memX : ∀ x ∈ xs, x ∈ domain) (memY : ∀ y ∈ ys, y ∈ domain) (length : xs.length = ys.length)
    (same : xs.flatMap encode ++ r = ys.flatMap encode ++ s) : xs = ys ∧ r = s := by
  induction xs generalizing ys with
  | nil =>
    cases ys with
    | nil => exact ⟨rfl, same⟩
    | cons y ys => simp at length
  | cons x xs ih =>
    cases ys with
    | nil => simp at length
    | cons y ys =>
      simp only [List.flatMap_cons, List.append_assoc] at same
      obtain ⟨head, tail⟩ := unambiguous x (memX x (by simp)) y (memY y (by simp)) _ _ same
      obtain ⟨rest, after⟩ := ih (fun z mem => memX z (by simp [mem])) (fun z mem => memY z (by simp [mem]))
        (by simpa using length) tail
      exact ⟨by rw [head, rest], after⟩

end Unambiguous

theorem bigEndian_unambiguous (width : Nat) : Unambiguous {n | n < 256 ^ width} (bigEndian width) :=
  unambiguous_of_length (bigEndian_length width) (fun _ boundN _ boundM => bigEndian_inj boundN boundM)

theorem lengthPrefixed_unambiguous : Unambiguous {value | value.length < 2 ^ 64} lengthPrefixed := by
  intro a boundA b boundB r s same
  simp only [lengthPrefixed, List.append_assoc] at same
  obtain ⟨length, rest⟩ := bigEndian_unambiguous 8 a.length boundA b.length boundB _ _ same
  exact List.append_inj rest length

end Kybernetes
