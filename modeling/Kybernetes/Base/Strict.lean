import Kybernetes.Base.Result
import Kybernetes.Base.Checked
import Mathlib.Algebra.GroupWithZero.Nat

namespace Kybernetes

/-- `a + b` where overflow checks are on: a sum that does not fit in the word is a panic. -/
def strictAdd (a b : UInt64) : Result UInt64 :=
  expect (checkedAdd a b) "attempt to add with overflow"

/-- `a - b` where overflow checks are on. -/
def strictSub (a b : UInt64) : Result UInt64 :=
  expect (checkedSub a b) "attempt to subtract with overflow"

/-- `n - 1` of a length where overflow checks are on. -/
def strictPred (n : Nat) : Result Nat :=
  match n with
  | 0 => .error (.panic "attempt to subtract with overflow")
  | n + 1 => .ok n

/-- A loop that adds a measure of each element, with whatever outcome when the
sum does not fit, leaves the exact sum. -/
theorem foldlM_sum_eq_ok {α : Type} {step : UInt64 → α → Result UInt64} {measure : α → Nat}
    (each : ∀ sum x next, step sum x = .ok next ↔ sum.toNat + measure x = next.toNat) {xs : List α}
    {start total : UInt64} :
    xs.foldlM step start = .ok total ↔ start.toNat + (xs.map measure).sum = total.toNat := by
  induction xs generalizing start with
  | nil => rw [foldlM_nil_eq_ok, List.map_nil, List.sum_nil, Nat.add_zero, UInt64.toNat_inj]
  | cons x xs ih =>
    simp only [foldlM_cons_eq_ok, each, ih, List.map_cons, List.sum_cons]
    constructor
    · rintro ⟨mid, first, rest⟩
      omega
    · intro sum
      have bound := total.toNat_lt
      obtain ⟨mid, first⟩ := exists_eq_toNat (show start.toNat + measure x < 2 ^ 64 by omega)
      exact ⟨mid, first, by omega⟩

theorem strictAdd_eq_ok {a b c : UInt64} : strictAdd a b = .ok c ↔ a.toNat + b.toNat = c.toNat := by
  rw [strictAdd, expect_eq_ok, checkedAdd_eq_some]

theorem strictSub_eq_ok {a b c : UInt64} : strictSub a b = .ok c ↔ b.toNat + c.toNat = a.toNat := by
  rw [strictSub, expect_eq_ok, checkedSub_eq_some]

/-- An addition with room is the wrapping one. -/
theorem strictAdd_of_room {a b : UInt64} (room : a.toNat + b.toNat < 2 ^ 64) : strictAdd a b = .ok (a + b) := by
  rw [strictAdd_eq_ok, UInt64.toNat_add, Nat.mod_eq_of_lt room]

theorem strictSub_of_le {a b : UInt64} (le : b ≤ a) : strictSub a b = .ok (a - b) := by
  rw [strictSub_eq_ok, UInt64.toNat_sub_of_le a b le]
  rw [UInt64.le_iff_toNat_le] at le
  omega

theorem strictPred_of_pos {n : Nat} (positive : 0 < n) : strictPred n = .ok (n - 1) := by
  cases n with
  | zero => exact absurd positive (Nat.lt_irrefl 0)
  | succ n => rfl

end Kybernetes
