import Kybernetes.Base.Intervals
import Kybernetes.Base.Strict
import Kybernetes.Consensus

namespace Kybernetes

namespace Consensus

/-- The stakes as numbers without a bound. -/
def stakes (self : Consensus) : List ℕ :=
  self.validators.map fun v => v.stake.toNat

/-- The loop of `select_validator` again, with the position of the reference it returns. -/
def positionFrom (target : UInt64) : UInt64 → List Validator → Option ℕ
  | _, [] => none
  | current, validator :: rest =>
    if target < current + validator.stake then some 0
    else (positionFrom target (current + validator.stake) rest).map (· + 1)

/-- Where in the list the validator stands that `select_validator` returns. -/
def selectPosition (self : Consensus) (value : UInt64) : Option ℕ :=
  if self.totalStake = 0 then none
  else positionFrom (value % self.totalStake) 0 self.validators

/-- The position is that of the returned validator. -/
theorem selectFrom_eq_position (target current : UInt64) (validators : List Validator) :
    selectFrom target current validators =
      (positionFrom target current validators).bind fun i => validators[i]? := by
  induction validators generalizing current with
  | nil => rfl
  | cons v rest ih =>
    by_cases here : target < current + v.stake
    · simp [selectFrom, positionFrom, here]
    · simp only [selectFrom, positionFrom, here, if_false, ih]
      cases positionFrom target (current + v.stake) rest <;> simp

theorem selectValidator_eq_position (self : Consensus) (value : UInt64) :
    self.selectValidator value = (self.selectPosition value).bind fun i => self.validators[i]? := by
  by_cases none : self.totalStake = 0
  · simp [selectValidator, selectPosition, none]
  · simp only [selectValidator, selectPosition, none, if_false, selectFrom_eq_position]

theorem foldl_stake_toNat {validators : List Validator} {total : UInt64}
    (room : total.toNat + (validators.map fun v => v.stake.toNat).sum < 2 ^ 64) :
    (validators.foldl (fun total v => total + v.stake) total).toNat =
      total.toNat + (validators.map fun v => v.stake.toNat).sum := by
  induction validators generalizing total with
  | nil => simp
  | cons v rest ih =>
    rw [List.map_cons, List.sum_cons] at room ⊢
    have added : (total + v.stake).toNat = total.toNat + v.stake.toNat := by
      rw [UInt64.toNat_add, Nat.mod_eq_of_lt (by omega)]
    rw [List.foldl_cons, ih (by omega), added]
    omega

theorem totalStake_toNat {self : Consensus} (room : self.stakes.sum < 2 ^ 64) :
    self.totalStake.toNat = self.stakes.sum := by
  have total := @foldl_stake_toNat self.validators 0
  rw [UInt64.toNat_zero, Nat.zero_add] at total
  exact total room

/-- Where no sum wraps, the loop locates the target among the stake intervals. -/
theorem positionFrom_eq_locate {target current : UInt64} {validators : List Validator}
    (room : current.toNat + (validators.map fun v => v.stake.toNat).sum < 2 ^ 64) :
    positionFrom target current validators =
      locate target.toNat current.toNat (validators.map fun v => v.stake.toNat) := by
  induction validators generalizing current with
  | nil => rfl
  | cons v rest ih =>
    rw [List.map_cons, List.sum_cons] at room
    have added : (current + v.stake).toNat = current.toNat + v.stake.toNat := by
      rw [UInt64.toNat_add, Nat.mod_eq_of_lt (by omega)]
    simp only [positionFrom, List.map_cons, locate, UInt64.lt_iff_toNat_lt, added]
    rw [ih (by omega), added]

theorem selectPosition_eq_locate {self : Consensus} (positive : 0 < self.stakes.sum)
    (room : self.stakes.sum < 2 ^ 64) (value : UInt64) :
    self.selectPosition value = locate (value.toNat % self.stakes.sum) 0 self.stakes := by
  have total := totalStake_toNat room
  have some_stake : self.totalStake ≠ 0 := by
    intro none
    rw [none, UInt64.toNat_zero] at total
    omega
  have room' : (0 : UInt64).toNat + self.stakes.sum < 2 ^ 64 := by
    rw [UInt64.toNat_zero, Nat.zero_add]
    exact room
  rw [selectPosition, if_neg some_stake, positionFrom_eq_locate room', UInt64.toNat_mod, total]
  rfl

theorem stakes_getElem {self : Consensus} {i : ℕ} (inside : i < self.stakes.length)
    (inside' : i < self.validators.length) : self.stakes[i] = self.validators[i].stake.toNat := by
  simp [stakes]

theorem stakes_length (self : Consensus) : self.stakes.length = self.validators.length := by
  simp [stakes]

/-- One selection: the position is the one whose interval holds the reduced value. -/
theorem selectPosition_eq_some_iff {self : Consensus} (positive : 0 < self.stakes.sum)
    (room : self.stakes.sum < 2 ^ 64) {value : UInt64} {i : ℕ} :
    self.selectPosition value = some i ↔ i < self.validators.length ∧
      weightBefore self.stakes i ≤ value.toNat % self.stakes.sum ∧
      value.toNat % self.stakes.sum < weightBefore self.stakes (i + 1) := by
  rw [selectPosition_eq_locate positive room, locate_eq_some_iff (Nat.zero_le _), stakes_length]
  simp only [Nat.zero_add]

theorem selectPosition_isSome {self : Consensus} (positive : 0 < self.stakes.sum)
    (room : self.stakes.sum < 2 ^ 64) (value : UInt64) : ∃ i, self.selectPosition value = some i := by
  rw [selectPosition_eq_locate positive room]
  apply exists_locate (Nat.zero_le _)
  rw [Nat.zero_add]
  exact Nat.mod_lt _ positive

theorem selectValidator_of_position {self : Consensus} {value : UInt64} {i : ℕ}
    (selected : self.selectPosition value = some i) (inside : i < self.validators.length) :
    self.selectValidator value = some self.validators[i] := by
  rw [selectValidator_eq_position, selected, Option.bind_some, List.getElem?_eq_getElem inside]

/-- A residue stands for the values that leave it, itself among them. -/
theorem card_selectPosition {self : Consensus} (room : self.stakes.sum < 2 ^ 64) {i : ℕ}
    (inside : i < self.validators.length) :
    ((Finset.range self.stakes.sum).filter fun residue =>
      self.selectPosition (UInt64.ofNat residue) = some i).card = self.validators[i].stake.toNat := by
  have same : ∀ residue ∈ Finset.range self.stakes.sum,
      (self.selectPosition (UInt64.ofNat residue) = some i ↔ locate residue 0 self.stakes = some i) := by
    intro residue below
    rw [Finset.mem_range] at below
    have word : (UInt64.ofNat residue).toNat = residue := UInt64.toNat_ofNat_of_lt' (by rw [UInt64.size]; omega)
    rw [selectPosition_eq_locate (by omega) room, word, Nat.mod_eq_of_lt below]
  rw [Finset.filter_congr same, card_locate (by rw [stakes_length]; exact inside), stakes_getElem _ inside]

theorem selected_stake_ne_zero {self : Consensus} (positive : 0 < self.stakes.sum)
    (room : self.stakes.sum < 2 ^ 64) {value : UInt64} {v : Validator}
    (selected : self.selectValidator value = some v) : v.stake ≠ 0 := by
  obtain ⟨i, position⟩ := selectPosition_isSome positive room value
  obtain ⟨inside, low, high⟩ := (selectPosition_eq_some_iff positive room).mp position
  rw [selectValidator_of_position position inside, Option.some.injEq] at selected
  rw [weightBefore_succ (by rw [stakes_length]; exact inside), stakes_getElem _ inside, selected] at high
  intro zero
  rw [zero, UInt64.toNat_zero] at high
  omega

/-- Selection weighted by stake: a value selects the one position whose stake interval
holds what it leaves modulo the total, a position is selected by as many residues as it has
stake, and no validator without stake is selected. -/
theorem selectValidator_stake_weighted (consensus : Consensus) (T : ℕ) (total : consensus.stakes.sum = T)
    (positive : 0 < T) (room : T < 2 ^ 64) :
    (∀ value : UInt64, ∃ (i : ℕ) (inside : i < consensus.validators.length),
      consensus.selectPosition value = some i ∧
      consensus.selectValidator value = some consensus.validators[i] ∧
      (weightBefore consensus.stakes i ≤ value.toNat % T ∧
        value.toNat % T < weightBefore consensus.stakes (i + 1)) ∧
      ∀ j, weightBefore consensus.stakes j ≤ value.toNat % T ∧
        value.toNat % T < weightBefore consensus.stakes (j + 1) → j = i) ∧
    (∀ (i : ℕ) (inside : i < consensus.validators.length),
      ((Finset.range T).filter fun residue =>
        consensus.selectPosition (UInt64.ofNat residue) = some i).card = consensus.validators[i].stake.toNat) ∧
    ∀ value v, consensus.selectValidator value = some v → v.stake ≠ 0 := by
  subst total
  refine ⟨fun value => ?_, fun i inside => card_selectPosition room inside,
    fun value v selected => selected_stake_ne_zero positive room selected⟩
  obtain ⟨i, position⟩ := selectPosition_isSome positive room value
  obtain ⟨inside, low, high⟩ := (selectPosition_eq_some_iff positive room).mp position
  refine ⟨i, inside, position, selectValidator_of_position position inside, ⟨low, high⟩, fun j inJ => ?_⟩
  exact interval_unique low high inJ.1 inJ.2

/-- Three validators, one of them without stake, share the residues of 8 as 5, 0 and 3. -/
theorem selectValidator_stake_weighted_three :
    ∃ consensus : Consensus, consensus.stakes.sum = 8 ∧
      (∀ value : UInt64, ∃ v, consensus.selectValidator value = some v) ∧
      ((Finset.range 8).filter fun residue =>
        consensus.selectPosition (UInt64.ofNat residue) = some 2).card = 3 := by
  let consensus : Consensus := { validators := [⟨str "a", 5⟩, ⟨str "b", 0⟩, ⟨str "c", 3⟩] }
  have total : consensus.stakes.sum = 8 := by decide +kernel
  obtain ⟨selects, counts, _⟩ := selectValidator_stake_weighted consensus 8 total (by decide) (by decide)
  refine ⟨consensus, total, fun value => ?_, counts 2 (by decide)⟩
  obtain ⟨i, inside, _, selected, _⟩ := selects value
  exact ⟨_, selected⟩

end Consensus

end Kybernetes
