import Mathlib.Algebra.BigOperators.Group.List.Basic
import Mathlib.Algebra.GroupWithZero.Nat
import Mathlib.Order.Interval.Finset.Nat

namespace Kybernetes

/-- The sum of the weights before a position: where the interval of the position begins. -/
def weightBefore (weights : List ℕ) (i : ℕ) : ℕ :=
  (weights.take i).sum

/-- The position whose interval holds the target, when the intervals are laid end
to end from `current` on. -/
def locate (target : ℕ) : ℕ → List ℕ → Option ℕ
  | _, [] => none
  | current, w :: ws => if target < current + w then some 0 else (locate target (current + w) ws).map (· + 1)

@[simp] theorem weightBefore_zero (weights : List ℕ) : weightBefore weights 0 = 0 := rfl

@[simp] theorem weightBefore_cons (w : ℕ) (ws : List ℕ) (i : ℕ) :
    weightBefore (w :: ws) (i + 1) = w + weightBefore ws i := by
  simp [weightBefore]

theorem weightBefore_length (weights : List ℕ) : weightBefore weights weights.length = weights.sum := by
  rw [weightBefore, List.take_length]

theorem weightBefore_succ {weights : List ℕ} {i : ℕ} (inside : i < weights.length) :
    weightBefore weights (i + 1) = weightBefore weights i + weights[i] :=
  List.sum_take_succ weights i inside

theorem weightBefore_mono (weights : List ℕ) : Monotone (weightBefore weights) := by
  refine monotone_nat_of_le_succ fun i => ?_
  by_cases inside : i < weights.length
  · rw [weightBefore_succ inside]
    omega
  · rw [weightBefore, weightBefore, List.take_of_length_le (by omega), List.take_of_length_le (by omega)]

theorem weightBefore_le_sum (weights : List ℕ) (i : ℕ) : weightBefore weights i ≤ weights.sum := by
  by_cases inside : i ≤ weights.length
  · rw [← weightBefore_length]
    exact weightBefore_mono weights inside
  · rw [weightBefore, List.take_of_length_le (by omega)]

/-- Intervals of different positions do not meet. -/
theorem interval_unique {weights : List ℕ} {target i j : ℕ}
    (low : weightBefore weights i ≤ target) (high : target < weightBefore weights (i + 1))
    (low' : weightBefore weights j ≤ target) (high' : target < weightBefore weights (j + 1)) : j = i := by
  by_contra different
  rcases Nat.lt_or_gt_of_ne different with before | after
  · have := weightBefore_mono weights (show j + 1 ≤ i from before)
    omega
  · have := weightBefore_mono weights (show i + 1 ≤ j from after)
    omega

theorem locate_eq_some_iff {target current i : ℕ} {weights : List ℕ} (reached : current ≤ target) :
    locate target current weights = some i ↔ i < weights.length ∧
      current + weightBefore weights i ≤ target ∧ target < current + weightBefore weights (i + 1) := by
  induction weights generalizing current i with
  | nil => simp [locate]
  | cons w ws ih =>
    by_cases here : target < current + w
    · cases i with
      | zero => simp [locate, here, reached]
      | succ i =>
        simp only [locate, here, if_true, weightBefore_cons, Option.some.injEq]
        omega
    · cases i with
      | zero => simp [locate, here]
      | succ i =>
        have later := @ih (current + w) i (by omega)
        simp only [locate, here, if_false, Option.map_eq_some_iff, weightBefore_cons, List.length_cons,
          Nat.add_right_cancel_iff, exists_eq_right, later]
        omega

theorem exists_locate {target current : ℕ} {weights : List ℕ} (reached : current ≤ target)
    (below : target < current + weights.sum) : ∃ i, locate target current weights = some i := by
  induction weights generalizing current with
  | nil =>
    rw [List.sum_nil] at below
    omega
  | cons w ws ih =>
    by_cases here : target < current + w
    · exact ⟨0, by simp [locate, here]⟩
    · rw [List.sum_cons] at below
      have reached' : current + w ≤ target := by omega
      obtain ⟨i, found⟩ := ih reached' (by omega)
      exact ⟨i + 1, by simp [locate, here, found]⟩

/-- A position is located from as many targets as it has weight. -/
theorem card_locate {weights : List ℕ} {i : ℕ} (inside : i < weights.length) :
    ((Finset.range weights.sum).filter fun target => locate target 0 weights = some i).card = weights[i] := by
  have interval : (Finset.range weights.sum).filter (fun target => locate target 0 weights = some i) =
      Finset.Ico (weightBefore weights i) (weightBefore weights (i + 1)) := by
    ext target
    have top := weightBefore_le_sum weights (i + 1)
    rw [Finset.mem_filter, Finset.mem_range, Finset.mem_Ico, locate_eq_some_iff (Nat.zero_le target)]
    omega
  rw [interval, Nat.card_Ico, weightBefore_succ inside]
  omega

end Kybernetes
