import Mathlib.Data.List.Perm.Subperm

namespace Kybernetes

variable {T : Type} {enabled : List T → T → Prop} {pool chosen other : List T}

/-- A sequence of steps each of which is enabled when its turn comes. -/
inductive Feasible (enabled : List T → T → Prop) : List T → Prop
  | nil : Feasible enabled []
  | concat {steps step} : Feasible enabled steps → enabled steps step → Feasible enabled (steps ++ [step])

/-- Taking further steps from the pool does not disable a step that is still to be taken. -/
def Persistent (enabled : List T → T → Prop) (pool : List T) : Prop :=
  ∀ fewer more step, Feasible enabled fewer → Feasible enabled more → fewer.Nodup → fewer ⊆ more → more ⊆ pool →
    step ∈ pool → step ∉ more → enabled fewer step → enabled more step

/-- No step of the pool is left that could still be taken. -/
def Maximal (enabled : List T → T → Prop) (pool chosen : List T) : Prop :=
  ∀ step ∈ pool, step ∉ chosen → ¬ enabled chosen step

/-- A maximal choice takes every step that any choice takes. -/
theorem Persistent.subset (persistent : Persistent enabled pool) (feasible : Feasible enabled chosen)
    (within : chosen ⊆ pool) (maximal : Maximal enabled pool chosen) (feasible' : Feasible enabled other)
    (within' : other ⊆ pool) (nodup : other.Nodup) : other ⊆ chosen := by
  induction feasible' with
  | nil => exact List.nil_subset _
  | @concat steps step earlier now ih =>
    obtain ⟨inside, last⟩ := List.append_subset.mp within'
    obtain ⟨nodup, _⟩ := List.nodup_append.mp nodup
    have fewer := ih inside nodup
    have inPool : step ∈ pool := last (List.mem_singleton_self _)
    have taken : step ∈ chosen := by
      by_contra missing
      have still := persistent steps chosen step earlier feasible nodup fewer within inPool missing now
      exact maximal step inPool missing still
    refine List.append_subset.mpr ⟨fewer, fun other member => ?_⟩
    rw [List.mem_singleton.mp member]
    exact taken

/-- Two maximal choices without repetition take the same steps. -/
theorem Persistent.perm (persistent : Persistent enabled pool) (feasible : Feasible enabled chosen)
    (within : chosen ⊆ pool) (nodup : chosen.Nodup) (maximal : Maximal enabled pool chosen)
    (feasible' : Feasible enabled other) (within' : other ⊆ pool) (nodup' : other.Nodup)
    (maximal' : Maximal enabled pool other) : chosen.Perm other := by
  have left := persistent.subset feasible' within' maximal' feasible within nodup
  have right := persistent.subset feasible within maximal feasible' within' nodup'
  exact (List.perm_ext_iff_of_nodup nodup nodup').mpr fun _ =>
    ⟨fun member => left member, fun member => right member⟩

end Kybernetes
