import Mathlib.Tactic.Common

namespace Kybernetes

/-- How a call ends without a value: with an error text that the caller
receives, or with a panic that no caller receives. -/
inductive Fault
  | error (message : String)
  | panic (message : String)
deriving DecidableEq, Repr

abbrev Result (α : Type) := Except Fault α

/-- `ok_or` on an optional value. -/
def okOr {α : Type} (value : Option α) (message : String) : Result α :=
  match value with
  | some a => .ok a
  | none => .error (.error message)

/-- `expect` on an optional value. -/
def expect {α : Type} (value : Option α) (message : String) : Result α :=
  match value with
  | some a => .ok a
  | none => .error (.panic message)

/-- An early return of an error when `bad` holds. -/
def rejectIf (bad : Prop) [Decidable bad] (message : String) : Result Unit :=
  if bad then .error (.error message) else .ok ()

/-- What the call returns, if it returns a value, meets the condition. -/
def Ensures {α : Type} (result : Result α) (condition : α → Prop) : Prop :=
  match result with
  | .ok a => condition a
  | .error _ => True

/-- The call comes back to its caller, with a value or with an error. -/
def Returns {α : Type} (result : Result α) : Prop :=
  ∀ message, result ≠ .error (.panic message)

variable {α β : Type}

theorem ensures_iff {result : Result α} {condition : α → Prop} :
    Ensures result condition ↔ ∀ a, result = .ok a → condition a := by
  cases result <;> simp [Ensures]

theorem bind_eq_ok {x : Result α} {f : α → Result β} {b : β} :
    (x >>= f) = .ok b ↔ ∃ a, x = .ok a ∧ f a = .ok b := by
  cases x with
  | error fault => simp [Bind.bind, Except.bind]
  | ok a => simp [Bind.bind, Except.bind]

/-- Two continuations that agree on the value of a call can be exchanged. -/
theorem bind_congr_of_ok {x : Result α} {f g : α → Result β} (same : ∀ a, x = .ok a → f a = g a) :
    (x >>= f) = (x >>= g) := by
  cases x with
  | error fault => rfl
  | ok a => exact same a rfl

theorem pure_eq_ok {a b : α} : (pure a : Result α) = .ok b ↔ a = b := by
  simp [Pure.pure, Except.pure]

theorem okOr_eq_ok {value : Option α} {message : String} {a : α} :
    okOr value message = .ok a ↔ value = some a := by
  cases value <;> simp [okOr]

theorem expect_eq_ok {value : Option α} {message : String} {a : α} :
    expect value message = .ok a ↔ value = some a := by
  cases value <;> simp [expect]

theorem rejectIf_eq_ok {bad : Prop} [Decidable bad] {message : String} {u : Unit} :
    rejectIf bad message = .ok u ↔ ¬ bad := by
  unfold rejectIf
  split <;> simp_all

/-- A checking loop passes exactly when every element passes. -/
theorem forM_eq_ok {check : α → Result Unit} {xs : List α} {u : Unit} :
    forM xs check = .ok u ↔ ∀ x ∈ xs, check x = .ok () := by
  induction xs with
  | nil => simp [pure_eq_ok]
  | cons x xs ih =>
    simp only [List.forM_cons, bind_eq_ok, ih, List.mem_cons, forall_eq_or_imp]
    constructor
    · rintro ⟨⟨⟩, first, rest⟩
      exact ⟨first, rest⟩
    · rintro ⟨first, rest⟩
      exact ⟨(), first, rest⟩

/-- A fold over an appended list is the fold over its parts in turn. -/
theorem foldlM_append_eq_ok {step : β → α → Result β} {xs ys : List α} {b c : β} :
    (xs ++ ys).foldlM step b = .ok c ↔
      ∃ mid, xs.foldlM step b = .ok mid ∧ ys.foldlM step mid = .ok c := by
  rw [List.foldlM_append, bind_eq_ok]

theorem foldlM_cons_eq_ok {step : β → α → Result β} {x : α} {xs : List α} {b c : β} :
    (x :: xs).foldlM step b = .ok c ↔ ∃ mid, step b x = .ok mid ∧ xs.foldlM step mid = .ok c := by
  rw [List.foldlM_cons, bind_eq_ok]

theorem foldlM_nil_eq_ok {step : β → α → Result β} {b c : β} :
    ([] : List α).foldlM step b = .ok c ↔ b = c := by
  rw [List.foldlM_nil, pure_eq_ok]

/-- A loop whose step may refuse the element but otherwise only updates. -/
theorem foldlM_update_eq_ok {step : β → α → Result β} {fits : α → Prop} {update : β → α → β}
    (each : ∀ b x c, step b x = .ok c ↔ fits x ∧ c = update b x) {xs : List α} {b c : β} :
    xs.foldlM step b = .ok c ↔ (∀ x ∈ xs, fits x) ∧ c = xs.foldl update b := by
  induction xs generalizing b with
  | nil =>
    rw [foldlM_nil_eq_ok]
    exact ⟨fun same => ⟨by simp, same.symm⟩, fun same => same.2.symm⟩
  | cons x xs ih =>
    rw [foldlM_cons_eq_ok, List.forall_mem_cons, List.foldl_cons]
    constructor
    · rintro ⟨mid, first, rest⟩
      obtain ⟨here, rfl⟩ := (each b x mid).mp first
      exact ⟨⟨here, (ih.mp rest).1⟩, (ih.mp rest).2⟩
    · rintro ⟨⟨here, later⟩, rfl⟩
      exact ⟨update b x, (each b x _).mpr ⟨here, rfl⟩, ih.mpr ⟨later, rfl⟩⟩

theorem returns_ok (a : α) : Returns (.ok a : Result α) := by
  intro message
  simp

theorem returns_okOr (value : Option α) (message : String) : Returns (okOr value message) := by
  intro message
  cases value <;> simp [okOr]

theorem returns_rejectIf (bad : Prop) [Decidable bad] (message : String) : Returns (rejectIf bad message) := by
  intro message
  by_cases rejected : bad
  · simp [rejectIf, rejected]
  · simp [rejectIf, rejected]

theorem Returns.bind {x : Result α} {f : α → Result β} (first : Returns x)
    (rest : ∀ a, x = .ok a → Returns (f a)) : Returns (x >>= f) := by
  cases x with
  | error fault =>
    intro message panicked
    simp only [Bind.bind, Except.bind, Except.error.injEq] at panicked
    exact first message (by rw [panicked])
  | ok a => exact rest a rfl

theorem returns_forM {check : α → Result Unit} (xs : List α) (each : ∀ x, Returns (check x)) :
    Returns (forM xs check) := by
  induction xs with
  | nil => exact returns_ok ()
  | cons x xs ih =>
    rw [List.forM_cons]
    exact (each x).bind fun _ _ => ih

theorem returns_foldlM {step : β → α → Result β} (xs : List α) (each : ∀ b x, Returns (step b x)) (b : β) :
    Returns (xs.foldlM step b) := by
  induction xs generalizing b with
  | nil => exact returns_ok b
  | cons x xs ih =>
    rw [List.foldlM_cons]
    exact (each b x).bind fun next _ => ih next

end Kybernetes
