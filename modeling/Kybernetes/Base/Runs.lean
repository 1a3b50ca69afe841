import Mathlib.Data.List.Basic
import Mathlib.Tactic.Common

namespace Kybernetes

variable {σ ε : Type}

/-- The state after a machine has taken the events of a list in turn. -/
def runFrom (step : σ → ε → σ) (start : σ) (events : List ε) : σ :=
  events.foldl step start

/-- Every event of the run meets a condition in the state in which it happens. -/
def Along (step : σ → ε → σ) (condition : σ → ε → Prop) : σ → List ε → Prop
  | _, [] => True
  | s, event :: events => condition s event ∧ Along step condition (step s event) events

theorem Along.of_mem {step : σ → ε → σ} {condition : σ → ε → Prop} {start : σ} {events : List ε}
    (each : ∀ s, ∀ event ∈ events, condition s event) : Along step condition start events := by
  induction events generalizing start with
  | nil => exact trivial
  | cons event events ih =>
    exact ⟨each start event (by simp), ih fun s later member => each s later (by simp [member])⟩

/-- An invariant that every permitted step keeps holds after every permitted run. -/
theorem Along.invariant {step : σ → ε → σ} {condition : σ → ε → Prop} {start : σ} {events : List ε}
    (along : Along step condition start events) (inv : σ → Prop)
    (preserved : ∀ s event, inv s → condition s event → inv (step s event)) (initial : inv start) :
    inv (runFrom step start events) := by
  induction events generalizing start with
  | nil => exact initial
  | cons event events ih => exact ih along.2 (preserved start event initial along.1)

/-- An invariant that every step keeps holds after every run. -/
theorem runFrom_invariant {step : σ → ε → σ} (inv : σ → Prop)
    (preserved : ∀ s event, inv s → inv (step s event)) {start : σ} (initial : inv start)
    (events : List ε) : inv (runFrom step start events) := by
  induction events generalizing start with
  | nil => exact initial
  | cons event events ih => exact ih (preserved start event initial)

/-- What the counted events take from a measure, a run with so many of them takes from it. -/
theorem runFrom_countdown {step : σ → ε → σ} (measure : σ → Nat) {counted : ε → Bool}
    (falls : ∀ s event, measure (step s event) ≤ measure s - if counted event then 1 else 0)
    (start : σ) (events : List ε) :
    measure (runFrom step start events) ≤ measure start - events.countP counted := by
  induction events generalizing start with
  | nil => exact Nat.le_refl _
  | cons event events ih =>
    have first := falls start event
    have later := ih (step start event)
    rw [List.countP_cons]
    change measure (runFrom step (step start event) events) ≤ _
    omega

/-- Whatever permitted events come, the machine gets to a state with the goal. -/
inductive Inevitable (step : σ → ε → σ) (permitted : ε → Prop) (goal : σ → Prop) : σ → Prop
  | here {s : σ} (reached : goal s) : Inevitable step permitted goal s
  | next {s : σ} (each : ∀ event, permitted event → Inevitable step permitted goal (step s event)) :
    Inevitable step permitted goal s

theorem Inevitable.trans {step : σ → ε → σ} {permitted : ε → Prop} {middle goal : σ → Prop} {s : σ}
    (first : Inevitable step permitted middle s) (rest : ∀ s, middle s → Inevitable step permitted goal s) :
    Inevitable step permitted goal s := by
  induction first with
  | here reached => exact rest _ reached
  | next _ ih => exact .next ih

/-- Along every infinite supply of permitted events the goal is met. -/
theorem Inevitable.exists_run {step : σ → ε → σ} {permitted : ε → Prop} {goal : σ → Prop} {start : σ}
    (inevitable : Inevitable step permitted goal start) (events : Nat → ε) (each : ∀ n, permitted (events n)) :
    ∃ n, goal (runFrom step start ((List.range n).map events)) := by
  induction inevitable generalizing events with
  | here reached => exact ⟨0, reached⟩
  | next _ ih =>
    obtain ⟨n, reached⟩ := ih (events 0) (each 0) (fun n => events (n + 1)) fun n => each (n + 1)
    refine ⟨n + 1, ?_⟩
    rw [List.range_succ_eq_map, List.map_cons, List.map_map]
    exact reached

end Kybernetes
