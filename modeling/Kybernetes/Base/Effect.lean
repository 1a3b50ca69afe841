import Kybernetes.Base.Result

namespace Kybernetes

/-- A call on a state. What it has done to the state stays when it fails. -/
def Effect (σ α : Type) : Type :=
  σ → Result α × σ

namespace Effect

variable {σ α β : Type}

instance : Monad (Effect σ) where
  pure a := fun s => (.ok a, s)
  bind x f := fun s =>
    match x s with
    | (.ok a, s') => f a s'
    | (.error fault, s') => (.error fault, s')

/-- A check that does not touch the state. -/
def lift (result : Result α) : Effect σ α :=
  fun s => (result, s)

variable {x : Effect σ α} {f : α → Effect σ β} {s s' : σ} {a : α} {b : β} {fault : Fault}

theorem bind_of_ok (first : x s = (.ok a, s')) : (x >>= f) s = f a s' := by
  simp only [Bind.bind, first]

theorem bind_of_error (first : x s = (.error fault, s')) : (x >>= f) s = (.error fault, s') := by
  simp only [Bind.bind, first]

theorem bind_eq_ok : (x >>= f) s = (.ok b, s') ↔ ∃ a mid, x s = (.ok a, mid) ∧ f a mid = (.ok b, s') := by
  cases first : x s with
  | mk result mid =>
    cases result with
    | error fault => simp [bind_of_error first]
    | ok a =>
      rw [bind_of_ok first]
      constructor
      · intro rest
        exact ⟨a, mid, rfl, rest⟩
      · rintro ⟨a', mid', same, rest⟩
        cases same
        exact rest

theorem lift_bind_of_ok {result : Result α} (passed : result = .ok a) (f : α → Effect σ β) (s : σ) :
    (lift result >>= f) s = f a s :=
  bind_of_ok (by rw [lift, passed])

end Effect

end Kybernetes
