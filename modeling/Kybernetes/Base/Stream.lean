import Mathlib.Data.List.Basic
import Mathlib.Tactic.Common

namespace Kybernetes

variable {α : Type} {pieces : List (List α)}

/-- `read` into a buffer with the given room, from a stream that delivers its
pieces in turn and then ends: what is there of the next piece. Nothing is read
only at the end. -/
def readSome (room : Nat) : List (List α) → List α × List (List α)
  | [] => ([], [])
  | [] :: pieces => readSome room pieces
  | (x :: piece) :: pieces => ((x :: piece).take room, (x :: piece).drop room :: pieces)

theorem readSome_length (room : Nat) (pieces : List (List α)) : (readSome room pieces).1.length ≤ room := by
  induction pieces with
  | nil => exact Nat.zero_le _
  | cons piece pieces ih =>
    cases piece with
    | nil => exact ih
    | cons x piece => exact List.length_take_le _ _

theorem readSome_append (room : Nat) (pieces : List (List α)) :
    (readSome room pieces).1 ++ (readSome room pieces).2.flatten = pieces.flatten := by
  induction pieces with
  | nil => rfl
  | cons piece pieces ih =>
    cases piece with
    | nil => exact ih
    | cons x piece =>
      rw [readSome, List.flatten_cons, List.flatten_cons, ← List.append_assoc, List.take_append_drop]

theorem readSome_eq_nil {room : Nat} (positive : 0 < room) :
    (readSome room pieces).1 = [] ↔ pieces.flatten = [] := by
  induction pieces with
  | nil => simp [readSome]
  | cons piece pieces ih =>
    cases piece with
    | nil => exact ih
    | cons x piece =>
      obtain ⟨room, rfl⟩ := Nat.exists_eq_add_of_lt positive
      simp [readSome]

theorem readSome_one {x : α} {back : List α} (whole : pieces.flatten = x :: back) :
    ∃ tail, readSome 1 pieces = ([x], tail) ∧ tail.flatten = back := by
  induction pieces with
  | nil => simp at whole
  | cons piece pieces ih =>
    cases piece with
    | nil => exact ih whole
    | cons y piece =>
      rw [List.flatten_cons, List.cons_append, List.cons.injEq] at whole
      obtain ⟨rfl, rest⟩ := whole
      exact ⟨piece :: pieces, rfl, rest⟩

/-- `read_exact`: reads until the buffer is full, unless the stream ends first. -/
def readExact (wanted : Nat) (pieces : List (List α)) : Option (List α) × List (List α) :=
  if _ : wanted = 0 then (some [], pieces)
  else if _ : (readSome wanted pieces).1 = [] then (none, (readSome wanted pieces).2)
  else
    let rest := readExact (wanted - (readSome wanted pieces).1.length) (readSome wanted pieces).2
    (rest.1.map fun later => (readSome wanted pieces).1 ++ later, rest.2)
termination_by wanted
decreasing_by
  rename_i full ended
  have positive : 0 < (readSome wanted pieces).1.length := List.length_pos_of_ne_nil ended
  omega

theorem readExact_append {wanted : Nat} {front back : List α} (whole : pieces.flatten = front ++ back)
    (size : front.length = wanted) :
    ∃ tail, readExact wanted pieces = (some front, tail) ∧ tail.flatten = back := by
  induction wanted using Nat.strongRecOn generalizing front pieces with
  | ind wanted ih =>
    rw [readExact]
    by_cases full : wanted = 0
    · rw [dif_pos full]
      cases List.eq_nil_of_length_eq_zero (size.trans full)
      exact ⟨pieces, rfl, whole⟩
    rw [dif_neg full]
    have positive : 0 < wanted := by omega
    have more : (readSome wanted pieces).1 ≠ [] := by
      intro ended
      rw [readSome_eq_nil positive, whole, List.append_eq_nil_iff] at ended
      rw [ended.1, List.length_nil] at size
      omega
    rw [dif_neg more]
    have progress : 0 < (readSome wanted pieces).1.length := List.length_pos_of_ne_nil more
    have delivered := readSome_append wanted pieces
    -- no read gives more than is wanted, so what it gives is the start of the front
    obtain ⟨later, split⟩ : (readSome wanted pieces).1 <+: front := by
      refine List.prefix_of_prefix_length_le ⟨_, delivered⟩ ⟨back, whole.symm⟩ ?_
      rw [size]
      exact readSome_length wanted pieces
    rw [whole, ← split, List.append_assoc] at delivered
    have length : later.length = wanted - (readSome wanted pieces).1.length := by
      have total := congrArg List.length split
      rw [List.length_append] at total
      omega
    obtain ⟨tail, read, rest⟩ := ih _ (by omega) (List.append_cancel_left delivered) length
    exact ⟨tail, by simp only [read, Option.map_some, split], rest⟩

theorem readExact_short {wanted : Nat} (short : pieces.flatten.length < wanted) :
    ∃ tail, readExact wanted pieces = (none, tail) := by
  induction wanted using Nat.strongRecOn generalizing pieces with
  | ind wanted ih =>
    rw [readExact, dif_neg (by omega)]
    by_cases ended : (readSome wanted pieces).1 = []
    · rw [dif_pos ended]
      exact ⟨_, rfl⟩
    · rw [dif_neg ended]
      have progress : 0 < (readSome wanted pieces).1.length := List.length_pos_of_ne_nil ended
      have delivered := congrArg List.length (readSome_append wanted pieces)
      rw [List.length_append] at delivered
      have less : (readSome wanted pieces).2.flatten.length < wanted - (readSome wanted pieces).1.length := by omega
      obtain ⟨tail, read⟩ := ih _ (by omega) less
      exact ⟨tail, by simp only [read, Option.map_none]⟩

/-- What `read_exact` has read is the front of what was there. -/
theorem readExact_some {wanted : Nat} {front : List α} {tail : List (List α)}
    (read : readExact wanted pieces = (some front, tail)) :
    front.length = wanted ∧ pieces.flatten = front ++ tail.flatten := by
  rcases Nat.lt_or_ge pieces.flatten.length wanted with short | long
  · obtain ⟨rest, none⟩ := readExact_short short
    rw [none] at read
    cases read
  · have size : (pieces.flatten.take wanted).length = wanted := List.length_take_of_le long
    obtain ⟨rest, whole, behind⟩ := readExact_append (List.take_append_drop wanted pieces.flatten).symm size
    rw [whole, Prod.mk.injEq, Option.some.injEq] at read
    obtain ⟨rfl, rfl⟩ := read
    exact ⟨size, by rw [behind, List.take_append_drop]⟩

end Kybernetes
