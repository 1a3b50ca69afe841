import Mathlib.Tactic.Common
import Mathlib.Algebra.BigOperators.Group.List.Basic

namespace Kybernetes

/-- `u64::checked_add`. -/
def checkedAdd (a b : UInt64) : Option UInt64 :=
  if a.toNat + b.toNat < 2 ^ 64 then some (a + b) else none

/-- `u64::checked_sub`. -/
def checkedSub (a b : UInt64) : Option UInt64 :=
  if b ≤ a then some (a - b) else none

/-- `u64::try_from` of an unsigned number. -/
def u64TryFrom (n : Nat) : Option UInt64 :=
  if n < 2 ^ 64 then some (UInt64.ofNat n) else none

theorem checkedAdd_eq_some {a b c : UInt64} :
    checkedAdd a b = some c ↔ a.toNat + b.toNat = c.toNat := by
  have bound := c.toNat_lt
  unfold checkedAdd
  split
  · rename_i room
    rw [Option.some.injEq, ← UInt64.toNat_inj, UInt64.toNat_add, Nat.mod_eq_of_lt room]
  · constructor
    · intro none; simp at none
    · intro same; omega

theorem checkedAdd_eq_none {a b : UInt64} : checkedAdd a b = none ↔ 2 ^ 64 ≤ a.toNat + b.toNat := by
  unfold checkedAdd
  split
  · simp only [reduceCtorEq, false_iff]
    omega
  · simp only [true_iff]
    omega

theorem checkedSub_eq_some {a b c : UInt64} :
    checkedSub a b = some c ↔ b.toNat + c.toNat = a.toNat := by
  unfold checkedSub
  split
  · rename_i le
    have toNat := UInt64.toNat_sub_of_le a b le
    rw [UInt64.le_iff_toNat_le] at le
    rw [Option.some.injEq, ← UInt64.toNat_inj, toNat]
    omega
  · rename_i above
    rw [UInt64.le_iff_toNat_le] at above
    constructor
    · intro none; simp at none
    · intro same; omega

theorem u64TryFrom_eq_some {n : Nat} {c : UInt64} : u64TryFrom n = some c ↔ n = c.toNat := by
  have bound := c.toNat_lt
  unfold u64TryFrom
  split
  · rename_i room
    rw [Option.some.injEq, ← UInt64.toNat_inj, UInt64.toNat_ofNat_of_lt' room]
  · constructor
    · intro none; simp at none
    · intro same; omega

/-- Numbers in the range are compared like their words. -/
theorem ofNat_lt_ofNat {a b : Nat} (room : a < 2 ^ 64) (room' : b < 2 ^ 64) :
    UInt64.ofNat a < UInt64.ofNat b ↔ a < b := by
  rw [UInt64.lt_iff_toNat_lt, UInt64.toNat_ofNat_of_lt' room, UInt64.toNat_ofNat_of_lt' room']

theorem ofNat_inj_of_lt {a b : Nat} (room : a < 2 ^ 64) (room' : b < 2 ^ 64) :
    UInt64.ofNat a = UInt64.ofNat b ↔ a = b := by
  rw [← UInt64.toNat_inj, UInt64.toNat_ofNat_of_lt' room, UInt64.toNat_ofNat_of_lt' room']

/-- A number in the range is the value of a word. -/
theorem exists_eq_toNat {n : Nat} (room : n < 2 ^ 64) : ∃ word : UInt64, n = word.toNat :=
  ⟨UInt64.ofNat n, (UInt64.toNat_ofNat_of_lt' (by rw [UInt64.size]; omega)).symm⟩

/-- An addition that does not wrap around. -/
theorem toNat_add_ofNat {a : UInt64} {n : Nat} (room : a.toNat + n < 2 ^ 64) :
    (a + UInt64.ofNat n).toNat = a.toNat + n := by
  have small : n < UInt64.size := by
    rw [UInt64.size]
    omega
  rw [UInt64.toNat_add, UInt64.toNat_ofNat_of_lt' small, Nat.mod_eq_of_lt room]

end Kybernetes
