import Mathlib.Data.List.Sort

namespace Kybernetes

variable {α κ : Type} {le : κ → κ → Prop} [DecidableRel le] [Std.Total le] [IsTrans κ le] [Std.Antisymm le]
  {key : α → κ} {xs ys : List α}

/-- The list in the order of its keys. -/
def sortByKey (le : κ → κ → Prop) [DecidableRel le] (key : α → κ) (xs : List α) : List α :=
  xs.insertionSort fun left right => le (key left) (key right)

omit [Std.Total le] [IsTrans κ le] [Std.Antisymm le] in
theorem sortByKey_perm : (sortByKey le key xs).Perm xs :=
  List.perm_insertionSort _ xs

omit [Std.Antisymm le] in
theorem sortByKey_sorted :
    (sortByKey le key xs).Pairwise fun left right => le (key left) (key right) := by
  have total : Std.Total fun left right : α => le (key left) (key right) :=
    ⟨fun left right => Std.Total.total (key left) (key right)⟩
  have trans : IsTrans α fun left right => le (key left) (key right) :=
    ⟨fun _ _ _ first second => IsTrans.trans _ _ _ first second⟩
  exact List.pairwise_insertionSort _ xs

/-- Lists with distinct keys have the same elements exactly when they are sorted alike. -/
theorem sortByKey_eq_iff_perm (distinct : (xs.map key).Nodup) :
    sortByKey le key xs = sortByKey le key ys ↔ xs.Perm ys := by
  constructor
  · intro same
    have sorted : (sortByKey le key xs).Perm ys := by
      rw [same]
      exact sortByKey_perm
    exact sortByKey_perm.symm.trans sorted
  · intro perm
    have perm' : (sortByKey le key xs).Perm (sortByKey le key ys) :=
      sortByKey_perm.trans (perm.trans sortByKey_perm.symm)
    refine List.Perm.eq_of_pairwise ?_ sortByKey_sorted sortByKey_sorted perm'
    intro left right memberLeft memberRight below above
    have insideLeft : left ∈ xs := sortByKey_perm.subset memberLeft
    have insideRight : right ∈ xs := perm.symm.subset (sortByKey_perm.subset memberRight)
    exact List.inj_on_of_nodup_map distinct insideLeft insideRight (Std.Antisymm.antisymm _ _ below above)

end Kybernetes
