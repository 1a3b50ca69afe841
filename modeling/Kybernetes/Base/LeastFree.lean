import Mathlib.Data.List.Sort
import Mathlib.Order.Bounds.Basic

namespace Kybernetes

/-- The scan of an increasing list of used numbers for the first number from `expected` on that is
not among them. Used numbers may be missing below and may be repeated. -/
def leastFree : ℕ → List ℕ → ℕ
  | expected, [] => expected
  | expected, used :: rest =>
    if used < expected then leastFree expected rest
    else if expected < used then expected
    else leastFree (expected + 1) rest

theorem le_leastFree (expected : ℕ) (used : List ℕ) : expected ≤ leastFree expected used := by
  induction used generalizing expected with
  | nil => exact Nat.le_refl _
  | cons first rest ih =>
    rw [leastFree]
    by_cases stale : first < expected
    · rw [if_pos stale]
      exact ih expected
    · rw [if_neg stale]
      by_cases gap : expected < first
      · rw [if_pos gap]
      · rw [if_neg gap]
        have later := ih (expected + 1)
        omega

/-- What the scan has passed is used. -/
theorem mem_of_lt_leastFree {expected n : ℕ} {used : List ℕ} (from_start : expected ≤ n)
    (passed : n < leastFree expected used) : n ∈ used := by
  induction used generalizing expected with
  | nil =>
    rw [leastFree] at passed
    omega
  | cons first rest ih =>
    rw [leastFree] at passed
    by_cases stale : first < expected
    · rw [if_pos stale] at passed
      exact List.mem_cons_of_mem _ (ih from_start passed)
    · rw [if_neg stale] at passed
      by_cases gap : expected < first
      · rw [if_pos gap] at passed
        omega
      · rw [if_neg gap] at passed
        by_cases here : n = expected
        · have same : n = first := by omega
          rw [same]
          exact List.mem_cons_self ..
        · exact List.mem_cons_of_mem _ (ih (by omega) passed)

/-- Where the scan stops nothing is used: everything behind is larger. -/
theorem leastFree_notMem {expected : ℕ} {used : List ℕ} (sorted : used.Pairwise (· ≤ ·)) :
    leastFree expected used ∉ used := by
  induction used generalizing expected with
  | nil => exact List.not_mem_nil
  | cons first rest ih =>
    obtain ⟨above, sorted⟩ := List.pairwise_cons.mp sorted
    rw [leastFree, List.mem_cons, not_or]
    by_cases stale : first < expected
    · rw [if_pos stale]
      have reached := le_leastFree expected rest
      exact ⟨by omega, ih sorted⟩
    · rw [if_neg stale]
      by_cases gap : expected < first
      · rw [if_pos gap]
        refine ⟨by omega, fun member => ?_⟩
        have larger := above expected member
        omega
      · rw [if_neg gap]
        have reached := le_leastFree (expected + 1) rest
        exact ⟨by omega, ih sorted⟩

/-- The scan finds the least free number. -/
theorem leastFree_isLeast {expected : ℕ} {used : List ℕ} (sorted : used.Pairwise (· ≤ ·)) :
    IsLeast {n | expected ≤ n ∧ n ∉ used} (leastFree expected used) := by
  refine ⟨⟨le_leastFree expected used, leastFree_notMem sorted⟩, ?_⟩
  rintro n ⟨from_start, free⟩
  by_contra below
  exact free (mem_of_lt_leastFree from_start (by omega))

end Kybernetes
