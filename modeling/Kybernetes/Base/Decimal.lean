import Kybernetes.Base.Codec
import Mathlib.Data.Nat.Digits.Lemmas

namespace Kybernetes

/-- `Display` of an unsigned number: its decimal digits, the highest first. -/
def decimal (n : Nat) : Bytes :=
  if n = 0 then [48] else (Nat.digits 10 n).reverse.map fun digit => UInt8.ofNat (48 + digit)

theorem decimal_digit_toNat {digit : Nat} (small : digit < 10) : (UInt8.ofNat (48 + digit)).toNat = 48 + digit := by
  rw [UInt8.toNat_ofNat']
  omega

/-- Every byte of a number is a digit. -/
theorem decimal_mem {n : Nat} {byte : UInt8} (member : byte ∈ decimal n) : 48 ≤ byte ∧ byte ≤ 57 := by
  rw [UInt8.le_iff_toNat_le, UInt8.le_iff_toNat_le]
  unfold decimal at member
  split at member
  · rw [List.mem_singleton.mp member]
    decide
  · obtain ⟨digit, held, rfl⟩ := List.mem_map.mp member
    have small := Nat.digits_lt_base (by decide) (List.mem_reverse.mp held)
    rw [decimal_digit_toNat small]
    constructor
    · exact Nat.le_add_right 48 digit
    · show 48 + digit ≤ 57
      omega

theorem decimal_ne_nil (n : Nat) : decimal n ≠ [] := by
  unfold decimal
  split
  · simp
  · rename_i positive
    simp only [ne_eq, List.map_eq_nil_iff, List.reverse_eq_nil_iff]
    exact Nat.digits_ne_nil_iff_ne_zero.mpr positive

theorem decimal_length_pos (n : Nat) : 0 < (decimal n).length :=
  List.length_pos_of_ne_nil (decimal_ne_nil n)

theorem decimal_length_le {n digits : Nat} (bound : n < 10 ^ digits) (positive : 0 < digits) :
    (decimal n).length ≤ digits := by
  unfold decimal
  split
  · exact positive
  · rw [List.length_map, List.length_reverse]
    exact (Nat.digits_length_le_iff (by decide) n).mpr bound

/-- The number that a list of digits stands for, the highest first. -/
theorem decimal_inj {n m : Nat} (same : decimal n = decimal m) : n = m := by
  have value : ∀ n, Nat.ofDigits 10 ((decimal n).reverse.map fun byte => byte.toNat - 48) = n := by
    intro n
    unfold decimal
    split
    · rename_i zero
      rw [zero]
      rfl
    · rw [← List.map_reverse, List.reverse_reverse, List.map_map]
      conv_rhs => rw [← Nat.ofDigits_digits 10 n]
      congr 1
      refine (List.map_congr_left fun digit held => ?_).trans (List.map_id _)
      have small := Nat.digits_lt_base (by decide) held
      simp only [Function.comp_apply, decimal_digit_toNat small, id]
      omega
  rw [← value n, same, value m]

section Delimited

variable {α : Type} {separator : α} {a b r s : List α}

/-- What stands in front of the first separator can be read back. -/
theorem append_separator_inj (freeA : separator ∉ a) (freeB : separator ∉ b)
    (same : a ++ separator :: r = b ++ separator :: s) : a = b ∧ r = s := by
  induction a generalizing b with
  | nil =>
    cases b with
    | nil => exact ⟨rfl, (List.cons_eq_cons.mp same).2⟩
    | cons y b =>
      obtain ⟨rfl, _⟩ := List.cons_eq_cons.mp same
      exact absurd (List.mem_cons_self ..) freeB
  | cons x a ih =>
    cases b with
    | nil =>
      obtain ⟨rfl, _⟩ := List.cons_eq_cons.mp same
      exact absurd (List.mem_cons_self ..) freeA
    | cons y b =>
      obtain ⟨rfl, tail⟩ := List.cons_eq_cons.mp same
      obtain ⟨rfl, rest⟩ := ih (fun member => freeA (List.mem_cons_of_mem _ member))
        (fun member => freeB (List.mem_cons_of_mem _ member)) tail
      exact ⟨rfl, rest⟩

/-- What stands behind the last separator can be read back. -/
theorem separator_append_inj (freeR : separator ∉ r) (freeS : separator ∉ s)
    (same : a ++ separator :: r = b ++ separator :: s) : a = b ∧ r = s := by
  have backwards := congrArg List.reverse same
  simp only [List.reverse_append, List.reverse_cons, List.append_assoc, List.singleton_append] at backwards
  obtain ⟨behind, front⟩ := append_separator_inj (fun member => freeR (List.mem_reverse.mp member))
    (fun member => freeS (List.mem_reverse.mp member)) backwards
  exact ⟨List.reverse_injective front, List.reverse_injective behind⟩

end Delimited

end Kybernetes
