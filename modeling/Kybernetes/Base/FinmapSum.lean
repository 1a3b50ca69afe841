import Mathlib.Data.Finmap
import Mathlib.Algebra.BigOperators.Group.Multiset.Basic

namespace Finmap

variable {α β : Type} [DecidableEq α]

/-- The sum of a measure of the values over a finite map. -/
def sumBy (measure : β → Nat) (m : Finmap fun _ : α => β) : Nat :=
  (m.entries.map fun entry => measure entry.2).sum

/-- What one key contributes to `sumBy`. -/
def measureAt (measure : β → Nat) (m : Finmap fun _ : α => β) (a : α) : Nat :=
  ((m.lookup a).map measure).getD 0

theorem sumBy_insert_fresh {measure : β → Nat} {m : Finmap fun _ : α => β} {a : α} {b : β}
    (fresh : a ∉ m) : sumBy measure (m.insert a b) = measure b + sumBy measure m := by
  simp only [sumBy, entries_insert_of_notMem fresh, Multiset.map_cons, Multiset.sum_cons]

theorem insert_erase_self (m : Finmap fun _ : α => β) (a : α) (b : β) :
    (m.erase a).insert a b = m.insert a b := by
  apply ext_lookup
  intro x
  by_cases h : x = a
  · subst h
    rw [lookup_insert, lookup_insert]
  · rw [lookup_insert_of_ne _ h, lookup_insert_of_ne _ h, lookup_erase_ne h]

theorem insert_lookup_self {m : Finmap fun _ : α => β} {a : α} {b : β} (found : m.lookup a = some b) :
    m.insert a b = m := by
  apply ext_lookup
  intro x
  by_cases h : x = a
  · subst h
    rw [lookup_insert, found]
  · rw [lookup_insert_of_ne _ h]

theorem sumBy_erase (measure : β → Nat) (m : Finmap fun _ : α => β) (a : α) :
    sumBy measure (m.erase a) + measureAt measure m a = sumBy measure m := by
  cases found : m.lookup a with
  | none =>
    have same : m.erase a = m := by
      apply ext_lookup
      intro x
      by_cases h : x = a
      · subst h
        rw [lookup_erase, found]
      · exact lookup_erase_ne h
    simp [measureAt, found, same]
  | some b =>
    have sum : sumBy measure ((m.erase a).insert a b) = measure b + sumBy measure (m.erase a) :=
      sumBy_insert_fresh notMem_erase_self
    rw [insert_erase_self, insert_lookup_self found] at sum
    simp only [measureAt, found, Option.map_some, Option.getD_some]
    omega

/-- Writing a key replaces what that key contributed and nothing else. -/
theorem sumBy_insert (measure : β → Nat) (m : Finmap fun _ : α => β) (a : α) (b : β) :
    sumBy measure (m.insert a b) + measureAt measure m a = sumBy measure m + measure b := by
  have erased := sumBy_erase measure m a
  have sum : sumBy measure ((m.erase a).insert a b) = measure b + sumBy measure (m.erase a) :=
    sumBy_insert_fresh notMem_erase_self
  rw [insert_erase_self] at sum
  omega

theorem measureAt_le_sumBy (measure : β → Nat) (m : Finmap fun _ : α => β) (a : α) :
    measureAt measure m a ≤ sumBy measure m := by
  have := sumBy_erase measure m a
  omega

end Finmap
