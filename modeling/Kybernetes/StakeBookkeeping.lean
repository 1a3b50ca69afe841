import Mathlib.Algebra.Order.BigOperators.Group.List
import Kybernetes.StakeSelection

namespace Kybernetes

inductive StakeCall
  | addValidator (address : Text) (stake : UInt64)
  | increaseStake (address : Text) (amount : UInt64)
  | decreaseStake (address : Text) (amount : UInt64)
deriving DecidableEq, Repr

namespace Consensus

/-- The list after a call. A refused call leaves the caller's list as it was. -/
def call (self : Consensus) : StakeCall → Consensus
  | .addValidator address stake => (self.addValidator address stake).2
  | .increaseStake address amount => (self.increaseStake address amount).toOption.getD self
  | .decreaseStake address amount => (self.decreaseStake address amount).toOption.getD self

def run (calls : List StakeCall) : Consensus :=
  calls.foldl call new

/-- `increase_stake` where overflow checks are on. -/
def strictIncreaseStake (self : Consensus) (address : Text) (amount : UInt64) : Result Consensus := do
  let validators ← changeStake address (strictAdd · amount) self.validators
  return { validators }

/-- `total_stake` where overflow checks are on. -/
def strictTotalStake (self : Consensus) : Result UInt64 :=
  self.validators.foldlM (fun total v => strictAdd total v.stake) 0

def strictSelectFrom (target : UInt64) : UInt64 → List Validator → Result (Option Validator)
  | _, [] => return none
  | current, validator :: rest => do
    let current ← strictAdd current validator.stake
    if target < current then return some validator
    else strictSelectFrom target current rest

/-- `select_validator` where overflow checks are on. -/
def strictSelectValidator (self : Consensus) (value : UInt64) : Result (Option Validator) := do
  let total ← self.strictTotalStake
  if total = 0 then return none
  else strictSelectFrom (value % total) 0 self.validators

/-- A call where overflow checks are on: only a panic ends the run. -/
def strictCall (self : Consensus) : StakeCall → Result Consensus
  | .increaseStake address amount =>
    match self.strictIncreaseStake address amount with
    | .error (.error _) => .ok self
    | other => other
  | other => .ok (self.call other)

def strictRun (calls : List StakeCall) : Result Consensus :=
  calls.foldlM strictCall new

end Consensus

/-- The stake of every address in numbers without a bound: what the calls are meant to keep. -/
abbrev ExactStakes := Text → Option ℕ

namespace ExactStakes

def call (exact : ExactStakes) : StakeCall → ExactStakes
  | .addValidator address stake =>
    if stake = 0 ∨ (exact address).isSome then exact else Function.update exact address (some stake.toNat)
  | .increaseStake address amount =>
    Function.update exact address ((exact address).map fun stake => stake + amount.toNat)
  | .decreaseStake address amount =>
    Function.update exact address ((exact address).map fun stake =>
      if stake < amount.toNat then stake else stake - amount.toNat)

def run (calls : List StakeCall) : ExactStakes :=
  calls.foldl call fun _ => none

end ExactStakes

namespace Consensus

/-- The recorded stakes, by address. -/
def recorded (self : Consensus) : ExactStakes :=
  fun address => (self.getValidator address).map fun v => v.stake.toNat

/-- What stake bookkeeping without overflow comes to after some calls. -/
structure Bookkept (calls : List StakeCall) : Prop where
  unique : ((run calls).validators.map Validator.address).Nodup
  exact : (run calls).recorded = ExactStakes.run calls
  increases : strictRun calls = .ok (run calls)
  total : (run calls).strictTotalStake = .ok (run calls).totalStake
  selection : ∀ value, (run calls).strictSelectValidator value = .ok ((run calls).selectValidator value)
  selects : (∃ v ∈ (run calls).validators, v.stake ≠ 0) → ∀ value, ((run calls).selectValidator value).isSome

/-- The exact sum of all stakes still fits in a word after the call. -/
def Fits (self : Consensus) : StakeCall → Prop
  | .addValidator address stake =>
    stake ≠ 0 → self.isValidatorAllowed address = false → self.stakes.sum + stake.toNat < 2 ^ 64
  | .increaseStake address amount =>
    self.isValidatorAllowed address = true → self.stakes.sum + amount.toNat < 2 ^ 64
  | .decreaseStake _ _ => True

/-- Every call of the run meets the condition in the state it is made in. -/
def RunFits (self : Consensus) : List StakeCall → Prop
  | [] => True
  | call :: rest => self.Fits call ∧ (self.call call).RunFits rest

/-! ### Changing one stake -/

theorem changeStake_absent {address : Text} {change : UInt64 → Result UInt64} {validators : List Validator}
    (absent : ∀ v ∈ validators, v.address ≠ address) :
    changeStake address change validators = .error (.error "Validator was not found") := by
  induction validators with
  | nil => rfl
  | cons v rest ih =>
    have other : v.address ≠ address := absent v (List.mem_cons_self ..)
    rw [changeStake, if_neg other, ih fun w inside => absent w (List.mem_cons_of_mem _ inside)]
    rfl

/-- The first validator with the address is the one that is changed. -/
theorem changeStake_first {change : UInt64 → Result UInt64} {before after : List Validator} {v : Validator}
    (first : ∀ w ∈ before, w.address ≠ v.address) :
    changeStake v.address change (before ++ v :: after) =
      (change v.stake).map fun stake => before ++ { v with stake } :: after := by
  induction before with
  | nil =>
    rw [List.nil_append, changeStake, if_pos rfl]
    cases change v.stake <;> rfl
  | cons w rest ih =>
    have other : w.address ≠ v.address := first w (List.mem_cons_self ..)
    rw [List.cons_append, changeStake, if_neg other, ih fun u inside => first u (List.mem_cons_of_mem _ inside)]
    cases change v.stake <;> rfl

theorem isValidatorAllowed_iff {self : Consensus} {address : Text} :
    self.isValidatorAllowed address = true ↔ ∃ v ∈ self.validators, v.address = address := by
  simp [isValidatorAllowed]

theorem exists_first {self : Consensus} {address : Text} (allowed : self.isValidatorAllowed address = true) :
    ∃ before v after, self.validators = before ++ v :: after ∧ v.address = address ∧
      ∀ w ∈ before, w.address ≠ address := by
  obtain ⟨v, found⟩ : ∃ v, self.getValidator address = some v := by
    rw [← Option.isSome_iff_exists, getValidator, List.find?_isSome]
    simpa [isValidatorAllowed] using allowed
  obtain ⟨same, before, after, split, first⟩ := List.find?_eq_some_iff_append.mp found
  exact ⟨before, v, after, split, by simpa using same, fun w inside => by simpa using first w inside⟩

/-- Replacing the first validator of an address replaces what is recorded for it. -/
theorem recorded_replace {before after : List Validator} {v : Validator} {stake : UInt64}
    (first : ∀ w ∈ before, w.address ≠ v.address) :
    recorded { validators := before ++ { v with stake } :: after } =
      Function.update (recorded { validators := before ++ v :: after }) v.address (some stake.toNat) := by
  have none_before : before.find? (fun w => w.address == v.address) = none := by
    rw [List.find?_eq_none]
    intro w inside
    simpa using first w inside
  funext address
  by_cases here : address = v.address
  · subst here
    simp [recorded, getValidator, none_before]
  · have skip : (v.address == address) = false := by simpa using fun same => here same.symm
    simp [recorded, getValidator, List.find?_append, Function.update_of_ne here, skip]

theorem recorded_first {before after : List Validator} {v : Validator}
    (first : ∀ w ∈ before, w.address ≠ v.address) :
    recorded { validators := before ++ v :: after } v.address = some v.stake.toNat := by
  have replaced := congrFun (@recorded_replace before after v v.stake first) v.address
  simpa using replaced

theorem recorded_isSome {self : Consensus} {address : Text} :
    (self.recorded address).isSome = self.isValidatorAllowed address := by
  rw [Bool.eq_iff_iff]
  simp [recorded, getValidator, isValidatorAllowed]

/-- A new address at the end of the list is recorded with its stake. -/
theorem recorded_append {validators : List Validator} {v : Validator}
    (fresh : ∀ w ∈ validators, w.address ≠ v.address) :
    recorded { validators := validators ++ [v] } =
      Function.update (recorded { validators }) v.address (some v.stake.toNat) := by
  funext address
  by_cases here : address = v.address
  · subst here
    rw [recorded_first fresh, Function.update_self]
  · have skip : (v.address == address) = false := by simpa using fun same => here same.symm
    simp [recorded, getValidator, Function.update_of_ne here, skip]

theorem sum_append (before after : List Validator) (v : Validator) :
    (stakes { validators := before ++ v :: after }).sum =
      (stakes { validators := before }).sum + v.stake.toNat + (stakes { validators := after }).sum := by
  simp [stakes]
  omega

/-! ### Sums with overflow checks -/

theorem foldlM_strictAdd_eq_ok {validators : List Validator} {start total : UInt64} :
    validators.foldlM (fun total v => strictAdd total v.stake) start = .ok total ↔
      start.toNat + (validators.map fun v => v.stake.toNat).sum = total.toNat :=
  foldlM_sum_eq_ok fun _ v _ => strictAdd_eq_ok (b := v.stake)

theorem strictTotalStake_eq_ok {self : Consensus} {total : UInt64} :
    self.strictTotalStake = .ok total ↔ self.stakes.sum = total.toNat := by
  have start := @foldlM_strictAdd_eq_ok self.validators 0 total
  rw [UInt64.toNat_zero, Nat.zero_add] at start
  exact start

theorem strictTotalStake_of_room {self : Consensus} (room : self.stakes.sum < 2 ^ 64) :
    self.strictTotalStake = .ok self.totalStake := by
  rw [strictTotalStake_eq_ok, totalStake_toNat room]

theorem strictSelectFrom_of_room {target current : UInt64} {validators : List Validator}
    (room : current.toNat + (validators.map fun v => v.stake.toNat).sum < 2 ^ 64) :
    strictSelectFrom target current validators = .ok (selectFrom target current validators) := by
  induction validators generalizing current with
  | nil => rfl
  | cons v rest ih =>
    rw [List.map_cons, List.sum_cons] at room
    have fits : current.toNat + v.stake.toNat < 2 ^ 64 := by omega
    have added : (current + v.stake).toNat = current.toNat + v.stake.toNat := by
      rw [UInt64.toNat_add, Nat.mod_eq_of_lt fits]
    have rest_eq := @ih (current + v.stake) (by omega)
    rw [strictSelectFrom, strictAdd_of_room fits, selectFrom]
    by_cases here : target < current + v.stake
    · simp [here, bind, Except.bind, pure, Except.pure]
    · simp [here, bind, Except.bind, rest_eq]

theorem strictSelectValidator_of_room {self : Consensus} (room : self.stakes.sum < 2 ^ 64) (value : UInt64) :
    self.strictSelectValidator value = .ok (self.selectValidator value) := by
  have room' : (0 : UInt64).toNat + self.stakes.sum < 2 ^ 64 := by
    rw [UInt64.toNat_zero, Nat.zero_add]
    exact room
  rw [strictSelectValidator, strictTotalStake_of_room room, selectValidator]
  by_cases none : self.totalStake = 0
  · simp [none, bind, Except.bind, pure, Except.pure]
  · simp [none, bind, Except.bind, strictSelectFrom_of_room room']

/-! ### One call -/

/-- What a call keeps: the stakes are those of the exact account and their sum fits in a word. -/
structure Kept (consensus : Consensus) (exact : ExactStakes) : Prop where
  unique : (consensus.validators.map Validator.address).Nodup
  exact : consensus.recorded = exact
  room : consensus.stakes.sum < 2 ^ 64

theorem kept_new : Kept new fun _ => none where
  unique := List.nodup_nil
  exact := rfl
  room := by decide

theorem call_addValidator_kept {self : Consensus} {exact : ExactStakes} (kept : Kept self exact)
    {address : Text} {stake : UInt64} (fits : self.Fits (.addValidator address stake)) :
    Kept (self.call (.addValidator address stake)) (exact.call (.addValidator address stake)) := by
  obtain ⟨unique, rfl, room⟩ := kept
  by_cases zero : stake = 0
  · simpa [call, addValidator, ExactStakes.call, zero] using Kept.mk unique rfl room
  cases allowed : self.isValidatorAllowed address with
  | true =>
    have known := recorded_isSome.trans allowed
    rw [isValidatorAllowed] at allowed
    simpa [call, addValidator, ExactStakes.call, zero, allowed, known] using Kept.mk unique rfl room
  | false =>
    have unknown := recorded_isSome.trans allowed
    have fresh : ∀ v ∈ self.validators, v.address ≠ address := by
      intro v inside same
      rw [isValidatorAllowed_iff.mpr ⟨v, inside, same⟩] at allowed
      contradiction
    have next : self.call (.addValidator address stake) =
        { validators := self.validators ++ [{ address, stake }] } := by
      rw [isValidatorAllowed] at allowed
      simp [call, addValidator, zero, allowed]
    have exactNext : ExactStakes.call self.recorded (.addValidator address stake) =
        Function.update self.recorded address (some stake.toNat) := by
      simp [ExactStakes.call, zero, unknown]
    rw [next, exactNext]
    refine ⟨?_, recorded_append fresh, ?_⟩
    · rw [List.map_append, List.nodup_append]
      refine ⟨unique, List.nodup_singleton _, ?_⟩
      intro a listed b last
      obtain ⟨v, inside, rfl⟩ := List.mem_map.mp listed
      rw [List.map_singleton, List.mem_singleton] at last
      rw [last]
      exact fresh v inside
    · have sum := sum_append self.validators [] { address, stake }
      have fitting := fits zero allowed
      simp only [stakes, List.map_nil, List.sum_nil] at sum fitting ⊢
      omega

/-- One stake replaced by another that leaves room for the sum. -/
theorem Kept.replace {before after : List Validator} {v : Validator} {exact : ExactStakes}
    (kept : Kept { validators := before ++ v :: after } exact) (first : ∀ w ∈ before, w.address ≠ v.address)
    {stake : UInt64}
    (room : (stakes { validators := before ++ v :: after }).sum + stake.toNat < 2 ^ 64 + v.stake.toNat) :
    Kept { validators := before ++ { v with stake } :: after }
      (Function.update exact v.address (some stake.toNat)) := by
  obtain ⟨unique, rfl, _⟩ := kept
  refine ⟨?_, recorded_replace first, ?_⟩
  · simpa using unique
  · simp only [sum_append] at room ⊢
    omega

theorem recorded_absent {self : Consensus} {address : Text} (absent : self.isValidatorAllowed address = false) :
    self.recorded address = none := by
  have unknown := recorded_isSome.trans absent
  rwa [Option.isSome_eq_false_iff, Option.isNone_iff_eq_none] at unknown

theorem changeStake_not_allowed {self : Consensus} {address : Text} {change : UInt64 → Result UInt64}
    (absent : self.isValidatorAllowed address = false) :
    changeStake address change self.validators = .error (.error "Validator was not found") := by
  refine changeStake_absent fun v inside same => ?_
  rw [isValidatorAllowed_iff.mpr ⟨v, inside, same⟩] at absent
  contradiction

theorem update_absent {exact : ExactStakes} {address : Text} (absent : exact address = none) (f : ℕ → ℕ) :
    Function.update exact address ((exact address).map f) = exact := by
  rw [absent, Option.map_none, ← absent, Function.update_eq_self]

theorem call_increaseStake_kept {self : Consensus} {exact : ExactStakes} (kept : Kept self exact)
    {address : Text} {amount : UInt64} (fits : self.Fits (.increaseStake address amount)) :
    Kept (self.call (.increaseStake address amount)) (exact.call (.increaseStake address amount)) ∧
      self.strictCall (.increaseStake address amount) = .ok (self.call (.increaseStake address amount)) := by
  have recorded := kept.exact
  cases allowed : self.isValidatorAllowed address with
  | false =>
    have same : self.call (.increaseStake address amount) = self := by
      rw [call, increaseStake, changeStake_not_allowed allowed]
      rfl
    constructor
    · have absent : exact address = none := by rw [← recorded, recorded_absent allowed]
      rw [same, ExactStakes.call, update_absent absent]
      exact kept
    · rw [same, strictCall, strictIncreaseStake, changeStake_not_allowed allowed]
      rfl
  | true =>
    obtain ⟨validators⟩ := self
    obtain ⟨before, v, after, rfl, rfl, first⟩ := exists_first allowed
    have fitting := fits allowed
    rw [sum_append] at fitting
    have added : (v.stake + amount).toNat = v.stake.toNat + amount.toNat := by
      rw [UInt64.toNat_add, Nat.mod_eq_of_lt (by omega)]
    have next : call { validators := before ++ v :: after } (.increaseStake v.address amount) =
        { validators := before ++ { v with stake := v.stake + amount } :: after } := by
      rw [call, increaseStake, changeStake_first first]
      rfl
    constructor
    · rw [next, ExactStakes.call, ← recorded, recorded_first first, Option.map_some, ← added, recorded]
      refine kept.replace first ?_
      rw [sum_append, added]
      omega
    · rw [next, strictCall, strictIncreaseStake, changeStake_first first, strictAdd_of_room (by omega)]
      rfl

theorem call_decreaseStake_kept {self : Consensus} {exact : ExactStakes} (kept : Kept self exact)
    (address : Text) (amount : UInt64) :
    Kept (self.call (.decreaseStake address amount)) (exact.call (.decreaseStake address amount)) := by
  have recorded := kept.exact
  cases allowed : self.isValidatorAllowed address with
  | false =>
    have same : self.call (.decreaseStake address amount) = self := by
      rw [call, decreaseStake, changeStake_not_allowed allowed]
      rfl
    have absent : exact address = none := by rw [← recorded, recorded_absent allowed]
    rw [same, ExactStakes.call, update_absent absent]
    exact kept
  | true =>
    obtain ⟨validators⟩ := self
    obtain ⟨before, v, after, rfl, rfl, first⟩ := exists_first allowed
    rw [ExactStakes.call, ← recorded, recorded_first first, Option.map_some, recorded]
    by_cases short : v.stake < amount
    · have same : call { validators := before ++ v :: after } (.decreaseStake v.address amount) =
          { validators := before ++ v :: after } := by
        rw [call, decreaseStake, changeStake_first first, rejectIf, if_pos short]
        rfl
      rw [UInt64.lt_iff_toNat_lt] at short
      rw [same, if_pos short, ← @recorded_first before after v first, recorded, Function.update_eq_self]
      exact kept
    · have next : call { validators := before ++ v :: after } (.decreaseStake v.address amount) =
          { validators := before ++ { v with stake := v.stake - amount } :: after } := by
        rw [call, decreaseStake, changeStake_first first, rejectIf, if_neg short]
        rfl
      have left : (v.stake - amount).toNat = v.stake.toNat - amount.toNat :=
        UInt64.toNat_sub_of_le _ _ (UInt64.not_lt.mp short)
      have room := kept.room
      rw [UInt64.lt_iff_toNat_lt] at short
      rw [next, if_neg short, ← left]
      refine kept.replace first ?_
      omega

/-- The step lemma: a call that meets the condition keeps the account and raises no panic. -/
theorem call_kept {self : Consensus} {exact : ExactStakes} (kept : Kept self exact) {call : StakeCall}
    (fits : self.Fits call) :
    Kept (self.call call) (exact.call call) ∧ self.strictCall call = .ok (self.call call) := by
  cases call with
  | addValidator address stake => exact ⟨call_addValidator_kept kept fits, rfl⟩
  | increaseStake address amount => exact call_increaseStake_kept kept fits
  | decreaseStake address amount => exact ⟨call_decreaseStake_kept kept address amount, rfl⟩

/-! ### Runs -/

theorem run_append (done : List StakeCall) (last : StakeCall) : run (done ++ [last]) = (run done).call last := by
  rw [run, List.foldl_append]
  rfl

theorem exactRun_append (done : List StakeCall) (last : StakeCall) :
    ExactStakes.run (done ++ [last]) = (ExactStakes.run done).call last := by
  rw [ExactStakes.run, List.foldl_append]
  rfl

theorem strictRun_append_eq_ok {done : List StakeCall} {last : StakeCall} {next : Consensus} :
    strictRun (done ++ [last]) = .ok next ↔ ∃ mid, strictRun done = .ok mid ∧ mid.strictCall last = .ok next := by
  simp only [strictRun, foldlM_append_eq_ok, foldlM_cons_eq_ok, foldlM_nil_eq_ok, exists_eq_right]

theorem selects_of_stake {self : Consensus} (room : self.stakes.sum < 2 ^ 64)
    (staked : ∃ v ∈ self.validators, v.stake ≠ 0) (value : UInt64) : (self.selectValidator value).isSome := by
  obtain ⟨v, inside, stake⟩ := staked
  have positive : 0 < self.stakes.sum := by
    have part : v.stake.toNat ≤ self.stakes.sum := List.le_sum_of_mem (List.mem_map_of_mem inside)
    have some_stake : v.stake.toNat ≠ 0 := fun zero => stake (UInt64.toNat_inj.mp zero)
    omega
  obtain ⟨i, position⟩ := selectPosition_isSome positive room value
  obtain ⟨inside, _⟩ := (selectPosition_eq_some_iff positive room).mp position
  rw [selectValidator_of_position position inside]
  rfl

theorem Kept.bookkept {calls : List StakeCall} (kept : Kept (run calls) (ExactStakes.run calls))
    (increases : strictRun calls = .ok (run calls)) : Bookkept calls where
  unique := kept.unique
  exact := kept.exact
  increases := increases
  total := strictTotalStake_of_room kept.room
  selection := strictSelectValidator_of_room kept.room
  selects := selects_of_stake kept.room

theorem Bookkept.room {calls : List StakeCall} (kept : Bookkept calls) : (run calls).stakes.sum < 2 ^ 64 := by
  rw [strictTotalStake_eq_ok.mp kept.total]
  exact UInt64.toNat_lt _

/-- The run lemma: by induction on what is still to be called. -/
theorem bookkept_of_fits {done rest : List StakeCall} (kept : Kept (run done) (ExactStakes.run done))
    (increases : strictRun done = .ok (run done)) (fits : (run done).RunFits rest) :
    ∀ next, next <+: rest → Bookkept (done ++ next) := by
  induction rest generalizing done with
  | nil =>
    intro next part
    rw [List.prefix_nil.mp part, List.append_nil]
    exact kept.bookkept increases
  | cons call rest ih =>
    intro next part
    obtain ⟨now, later⟩ := fits
    obtain ⟨keptNext, strict⟩ := call_kept kept now
    rw [← run_append] at keptNext strict later
    rw [← exactRun_append] at keptNext
    cases next with
    | nil =>
      rw [List.append_nil]
      exact kept.bookkept increases
    | cons first next =>
      obtain ⟨rfl, part'⟩ := List.cons_prefix_cons.mp part
      rw [List.append_cons]
      exact ih keptNext (strictRun_append_eq_ok.mpr ⟨_, increases, strict⟩) later next part'

/-- A call after which the account is still exact met the condition. -/
theorem fits_of_bookkept {done : List StakeCall} {call : StakeCall} (before : Bookkept done)
    (after : Bookkept (done ++ [call])) : (run done).Fits call := by
  have room := after.room
  obtain ⟨mid, strictDone, strict⟩ := strictRun_append_eq_ok.mp after.increases
  obtain rfl : run done = mid := Except.ok.inj (before.increases.symm.trans strictDone)
  rw [run_append] at room strict
  cases call with
  | addValidator address stake =>
    intro positive unknown
    have next : (run done).call (.addValidator address stake) =
        { validators := (run done).validators ++ [{ address, stake }] } := by
      rw [isValidatorAllowed] at unknown
      simp [Consensus.call, addValidator, positive, unknown]
    rw [next, sum_append] at room
    simp only [stakes, List.map_nil, List.sum_nil] at room ⊢
    omega
  | increaseStake address amount =>
    intro allowed
    obtain ⟨before, v, rest, split, rfl, first⟩ := exists_first allowed
    cases added : strictAdd v.stake amount with
    | error fault =>
      obtain ⟨message⟩ | ⟨message⟩ := fault
      · simp [strictAdd, expect] at added
        split at added <;> simp at added
      · rw [strictCall, strictIncreaseStake, split, changeStake_first first, added] at strict
        simp [Except.map, bind, Except.bind] at strict
    | ok stake =>
      rw [strictCall, strictIncreaseStake, split, changeStake_first first, added] at strict
      have next := Except.ok.inj strict
      rw [← next, sum_append] at room
      have sum := strictAdd_eq_ok.mp added
      have whole : (run done).stakes.sum = (stakes { validators := before }).sum + v.stake.toNat +
          (stakes { validators := rest }).sum := by rw [← sum_append, ← split]
      simp only at room
      omega
  | decreaseStake address amount => trivial

theorem fits_of_all_bookkept {done rest : List StakeCall}
    (kept : ∀ next, next <+: rest → Bookkept (done ++ next)) : (run done).RunFits rest := by
  induction rest generalizing done with
  | nil => trivial
  | cons call rest ih =>
    have now := kept [] List.nil_prefix
    have next := kept [call] (List.cons_prefix_cons.mpr ⟨rfl, List.nil_prefix⟩)
    rw [List.append_nil] at now
    refine ⟨fits_of_bookkept now next, ?_⟩
    rw [← run_append]
    refine ih fun later part => ?_
    rw [List.append_assoc]
    exact kept _ (List.cons_prefix_cons.mpr ⟨rfl, part⟩)

/-- Bookkeeping is exact in every state of a run exactly when every addition of the run
leaves a sum of all stakes that fits in a word. -/
theorem bookkept_iff_runFits (calls : List StakeCall) :
    (∀ done, done <+: calls → Bookkept done) ↔ new.RunFits calls := by
  constructor
  · intro kept
    exact @fits_of_all_bookkept [] calls kept
  · intro fits
    exact @bookkept_of_fits [] calls kept_new rfl fits

/-- One validator with one unit of stake, increased by the largest word, ends without stake. -/
theorem bookkept_wraps :
    let calls : List StakeCall := [.addValidator (str "a") 1, .increaseStake (str "a") 18446744073709551615]
    (run calls).validators = [⟨str "a", 0⟩] ∧ ExactStakes.run calls (str "a") = some (2 ^ 64) ∧
      strictRun calls = .error (.panic "attempt to add with overflow") ∧ ¬ Bookkept calls := by
  have wraps : strictRun [.addValidator (str "a") 1, .increaseStake (str "a") 18446744073709551615] =
      .error (.panic "attempt to add with overflow") := by decide +kernel
  refine ⟨by decide +kernel, by decide +kernel, wraps, fun kept => ?_⟩
  have increases := kept.increases
  rw [wraps] at increases
  contradiction

end Consensus

end Kybernetes
