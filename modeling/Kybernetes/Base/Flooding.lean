import Mathlib.Data.Set.Card
import Mathlib.Logic.Relation

namespace Kybernetes

/-- News on its way through a network: the nodes that have it, those of them that have still to tell
their neighbours, and the nodes that are being told. -/
@[ext]
structure Flood (ν : Type) where
  informed : Set ν
  telling : List ν
  told : List ν

namespace Flood

variable {ν : Type} {links : ν → Set ν} {limit : Nat} {flood flood' : Flood ν}

/-- A node tells its neighbours, and whom else it likes, up to a limit. Who hears the news for the first
time will tell it in turn. -/
inductive Step (links : ν → Set ν) (limit : Nat) : Flood ν → Flood ν → Prop
  | tell {informed : Set ν} {before after told targets : List ν} {node : ν}
      (reaches : ∀ neighbour ∈ links node, neighbour ∈ targets) (few : targets.length ≤ limit) :
      Step links limit { informed, telling := before ++ node :: after, told }
        { informed, telling := before ++ after, told := told ++ targets }
  | hear {informed : Set ν} {telling before after : List ν} {node : ν} (fresh : node ∉ informed) :
      Step links limit { informed, telling, told := before ++ node :: after }
        { informed := insert node informed, telling := telling ++ [node], told := before ++ after }
  | ignore {informed : Set ν} {telling before after : List ν} {node : ν} (known : node ∈ informed) :
      Step links limit { informed, telling, told := before ++ node :: after }
        { informed, telling, told := before ++ after }

/-- Who has the news has still to tell it, or has told each neighbour. -/
def Covered (links : ν → Set ν) (flood : Flood ν) : Prop :=
  ∀ node ∈ flood.informed, node ∈ flood.telling ∨
    ∀ neighbour ∈ links node, neighbour ∈ flood.informed ∨ neighbour ∈ flood.told

theorem Step.informed_subset (step : Step links limit flood flood') : flood.informed ⊆ flood'.informed := by
  cases step with
  | tell | ignore => exact subset_rfl
  | hear => exact Set.subset_insert _ _

theorem Covered.step (covered : flood.Covered links) (step : Step links limit flood flood') :
    flood'.Covered links := by
  cases step with
  | @tell informed before after told targets teller reaches few =>
    intro node member
    by_cases here : node = teller
    · right
      intro neighbour linked
      exact Or.inr (List.mem_append_right _ (reaches neighbour (here ▸ linked)))
    · rcases covered node member with waiting | spread
      · left
        simpa [here] using waiting
      · right
        intro neighbour linked
        exact (spread neighbour linked).imp_right (List.mem_append_left _)
  | @hear informed telling before after hearer fresh =>
    intro node member
    rcases Set.mem_insert_iff.mp member with rfl | old
    · left
      simp
    · rcases covered node old with waiting | spread
      · exact Or.inl (List.mem_append_left _ waiting)
      · right
        intro neighbour linked
        rcases spread neighbour linked with knows | flying
        · exact Or.inl (Set.mem_insert_of_mem _ knows)
        · by_cases arrived : neighbour = hearer
          · exact Or.inl (Set.mem_insert_iff.mpr (Or.inl arrived))
          · right
            simpa [arrived] using flying
  | @ignore informed telling before after hearer known =>
    intro node member
    refine (covered node member).imp_right fun spread neighbour linked => ?_
    rcases spread neighbour linked with knows | flying
    · exact Or.inl knows
    · by_cases arrived : neighbour = hearer
      · exact Or.inl (arrived ▸ known)
      · right
        simpa [arrived] using flying

/-- When nobody has anything left to tell or to hear, the news is wherever links lead from a node
that has it. -/
theorem Covered.reaches (covered : flood.Covered links) (still : flood.telling = []) (heard : flood.told = [])
    {node other : ν} (informed : node ∈ flood.informed)
    (path : Relation.ReflTransGen (fun teller hearer => hearer ∈ links teller) node other) : other ∈ flood.informed := by
  induction path with
  | refl => exact informed
  | tail _ link ih =>
    rcases covered _ ih with waiting | spread
    · rw [still] at waiting
      cases waiting
    · rcases spread _ link with knows | flying
      · exact knows
      · rw [heard] at flying
        cases flying

/-- What is left to be done at most: every node without the news may hear it, tell it to as many as the
limit allows, and each of these may be told in vain. -/
noncomputable def work (limit : Nat) (flood : Flood ν) : Nat :=
  (limit + 2) * (flood.informedᶜ).ncard + (limit + 1) * flood.telling.length + flood.told.length

theorem Step.work_lt [Finite ν] (step : Step links limit flood flood') : flood'.work limit < flood.work limit := by
  cases step with
  | @tell informed before after told targets teller reaches few =>
    simp only [work, List.length_append, List.length_cons, Nat.mul_add]
    omega
  | @hear informed telling before after hearer fresh =>
    have fewer : ((insert hearer informed)ᶜ).ncard + 1 = (informedᶜ).ncard := by
      have shape : (insert hearer informed)ᶜ = informedᶜ \ {hearer} := by
        ext node
        simp [and_comm]
      rw [shape]
      exact Set.ncard_sdiff_singleton_add_one fresh
    simp only [work, ← fewer, List.length_append, List.length_cons, List.length_nil, Nat.mul_add]
    omega
  | @ignore informed telling before after hearer known =>
    simp only [work, List.length_append, List.length_cons]
    omega

end Flood

end Kybernetes
