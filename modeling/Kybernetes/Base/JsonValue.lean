import Kybernetes.Base.Json

namespace Kybernetes.Json

/-- What a JSON text says. The numbers are natural numbers. -/
inductive Value
  | text (content : Bytes)
  | number (n : Nat)
  | boolean (value : Bool)
  | null
  | array (items : List Value)
  | object (members : List (Bytes × Value))

/-- How a writer lays out a value: what it puts in front of each item of an array or an object and of
the closing bracket, by the depth, and between a name and its value. -/
structure Layout where
  gap : Nat → Bytes
  colon : Bytes
  gap_blank : ∀ depth, gap depth = [] ∨ ∃ rest, gap depth = 10 :: rest

/-- No space at all. -/
def compact : Layout where
  gap _ := []
  colon := [58]
  gap_blank _ := Or.inl rfl

/-- A line for each item, indented by two spaces. -/
def pretty : Layout where
  gap depth := 10 :: List.replicate (2 * depth) 32
  colon := [58, 32]
  gap_blank _ := Or.inr ⟨_, rfl⟩

/-- Items between two brackets. -/
def Layout.enclose (layout : Layout) (depth : Nat) (bracket close : UInt8) (items : List Bytes) : Bytes :=
  match items with
  | [] => [bracket, close]
  | items => bracket :: (separated (items.map fun item => layout.gap (depth + 1) ++ item)
      ++ (layout.gap depth ++ [close]))

mutual

def Value.print (layout : Layout) (depth : Nat) : Value → Bytes
  | .text content => string content
  | .number n => Json.number n
  | .boolean value => Json.boolean value
  | .null => Json.null
  | .array items => layout.enclose depth 91 93 (printItems layout (depth + 1) items)
  | .object members => layout.enclose depth 123 125 (printMembers layout (depth + 1) members)

def printItems (layout : Layout) (depth : Nat) : List Value → List Bytes
  | [] => []
  | item :: items => item.print layout depth :: printItems layout depth items

def printMembers (layout : Layout) (depth : Nat) : List (Bytes × Value) → List Bytes
  | [] => []
  | (name, value) :: members =>
    (string name ++ (layout.colon ++ value.print layout depth)) :: printMembers layout depth members

end

theorem printItems_eq (layout : Layout) (depth : Nat) (items : List Value) :
    printItems layout depth items = items.map (Value.print layout depth) := by
  induction items with
  | nil => rfl
  | cons item items ih => rw [printItems, ih, List.map_cons]

/-- A member of an object, with its name. -/
def printMember (layout : Layout) (depth : Nat) (member : Bytes × Value) : Bytes :=
  string member.1 ++ (layout.colon ++ member.2.print layout depth)

theorem printMembers_eq (layout : Layout) (depth : Nat) (members : List (Bytes × Value)) :
    printMembers layout depth members = members.map (printMember layout depth) := by
  induction members with
  | nil => rfl
  | cons member members ih => rw [printMembers, ih, List.map_cons, printMember]

/-! ### A text says one value only -/

/-- What can stand behind a value: the end, a comma, a closing bracket or a line break. -/
def Closes (rest : Bytes) : Prop :=
  ∀ byte, rest.head? = some byte → byte = 44 ∨ byte = 93 ∨ byte = 125 ∨ byte = 10

/-- The kind of value that a byte begins. -/
def kindOf (byte : UInt8) : Nat :=
  if byte = 34 then 1
  else if 48 ≤ byte ∧ byte ≤ 57 then 2
  else if byte = 116 ∨ byte = 102 then 3
  else if byte = 110 then 4
  else if byte = 91 then 5
  else if byte = 123 then 6
  else 0

def Value.kind : Value → Nat
  | .text _ => 1
  | .number _ => 2
  | .boolean _ => 3
  | .null => 4
  | .array _ => 5
  | .object _ => 6

theorem Layout.enclose_eq_cons (layout : Layout) (depth : Nat) (bracket close : UInt8) (items : List Bytes) :
    ∃ rest, layout.enclose depth bracket close items = bracket :: rest := by
  cases items with
  | nil => exact ⟨_, rfl⟩
  | cons item items => exact ⟨_, rfl⟩

theorem kindOf_digit : ∀ byte : UInt8, 48 ≤ byte ∧ byte ≤ 57 → kindOf byte = 2 :=
  forall_byte (by decide +kernel)

/-- The first byte of a value gives its kind away. -/
theorem Value.print_eq_cons (layout : Layout) (depth : Nat) (value : Value) :
    ∃ byte rest, value.print layout depth = byte :: rest ∧ kindOf byte = value.kind := by
  cases value with
  | text content => exact ⟨34, _, rfl, rfl⟩
  | number n =>
    obtain ⟨byte, rest, digits⟩ := List.exists_cons_of_ne_nil (decimal_ne_nil n)
    have digit := @decimal_mem n byte (by rw [digits]; exact List.mem_cons_self)
    exact ⟨byte, rest, digits, kindOf_digit byte digit⟩
  | boolean value =>
    cases value with
    | true => exact ⟨116, _, rfl, rfl⟩
    | false => exact ⟨102, _, rfl, rfl⟩
  | null => exact ⟨110, _, rfl, rfl⟩
  | array items =>
    obtain ⟨rest, front⟩ := layout.enclose_eq_cons depth 91 93 (printItems layout (depth + 1) items)
    exact ⟨91, rest, by rw [Value.print, front], rfl⟩
  | object members =>
    obtain ⟨rest, front⟩ := layout.enclose_eq_cons depth 123 125 (printMembers layout (depth + 1) members)
    exact ⟨123, rest, by rw [Value.print, front], rfl⟩

theorem Value.kind_pos (value : Value) : 0 < value.kind := by
  cases value <;> simp [kind]

theorem Value.kind_eq {layout : Layout} {depth : Nat} {value value' : Value} {r s : Bytes}
    (same : value.print layout depth ++ r = value'.print layout depth ++ s) : value.kind = value'.kind := by
  obtain ⟨byte, rest, front, kind⟩ := value.print_eq_cons layout depth
  obtain ⟨byte', rest', front', kind'⟩ := value'.print_eq_cons layout depth
  rw [front, front', List.cons_append, List.cons_append, List.cons.injEq] at same
  rw [← kind, ← kind', same.1]

theorem closes_of_cons {byte : UInt8} {rest : Bytes} (which : byte = 44 ∨ byte = 93 ∨ byte = 125 ∨ byte = 10) :
    Closes (byte :: rest) := by
  intro first front
  rw [List.head?_cons, Option.some.injEq] at front
  rwa [← front]

theorem Layout.closes_gap (layout : Layout) (depth : Nat) {close : UInt8} (closing : close = 93 ∨ close = 125)
    (rest : Bytes) : Closes (layout.gap depth ++ close :: rest) := by
  rcases layout.gap_blank depth with none | ⟨blank, gap⟩
  · rw [none, List.nil_append]
    refine closes_of_cons ?_
    tauto
  · rw [gap, List.cons_append]
    exact closes_of_cons (by simp)

/-- The digits of a number end where something else begins. -/
theorem number_inj {n m : Nat} {r s : Bytes} (closes : Closes r) (closes' : Closes s)
    (same : number n ++ r = number m ++ s) : n = m ∧ r = s := by
  have digits : ∀ (n : Nat) (rest : Bytes), Closes rest →
      (number n ++ rest).takeWhile (fun byte => 48 ≤ byte ∧ byte ≤ 57) = number n := by
    intro n rest closes
    rw [List.takeWhile_append_of_pos fun byte member => by simpa using decimal_mem member]
    have stop : rest.takeWhile (fun byte => 48 ≤ byte ∧ byte ≤ 57) = [] := by
      cases rest with
      | nil => rfl
      | cons byte rest =>
        rw [List.takeWhile_cons_of_neg]
        rcases closes byte rfl with rfl | rfl | rfl | rfl <;> decide
    rw [stop, List.append_nil]
  have front : number n = number m := by rw [← digits n r closes, same, digits m s closes']
  refine ⟨decimal_inj front, ?_⟩
  rw [front] at same
  exact List.append_cancel_left same

/-- Whatever may stand behind it, the item and the rest can be read back. -/
def ReadBack {α : Type} (print : α → Bytes) (a : α) : Prop :=
  ∀ b r s, Closes r → Closes s → print a ++ r = print b ++ s → a = b ∧ r = s

section

variable {α : Type} {print : α → Bytes} {layout : Layout} {depth : Nat} {close : UInt8}

/-- The items of a list are read back one after another up to the closing bracket. -/
theorem separated_inj (closing : close = 93 ∨ close = 125) {xs ys : List α} {r s : Bytes}
    (nonempty : xs ≠ []) (nonempty' : ys ≠ []) (each : ∀ x ∈ xs, ReadBack print x)
    (same : separated (xs.map fun x => layout.gap (depth + 1) ++ print x) ++ (layout.gap depth ++ close :: r) =
      separated (ys.map fun y => layout.gap (depth + 1) ++ print y) ++ (layout.gap depth ++ close :: s)) :
    xs = ys ∧ r = s := by
  have comma : ∀ rest : Bytes, Closes (44 :: rest) := fun rest => closes_of_cons (by simp)
  have ends : ∀ rest : Bytes, Closes (layout.gap depth ++ close :: rest) :=
    fun rest => layout.closes_gap depth closing rest
  -- a comma is neither a line break nor a closing bracket
  have apart : ∀ a b : Bytes, layout.gap depth ++ close :: a ≠ 44 :: b := by
    intro a b equal
    rcases layout.gap_blank depth with none | ⟨blank, gap⟩
    · rw [none, List.nil_append, List.cons.injEq] at equal
      rcases closing with rfl | rfl <;> exact absurd equal.1 (by decide)
    · rw [gap, List.cons_append, List.cons.injEq] at equal
      exact absurd equal.1 (by decide)
  induction xs generalizing ys with
  | nil => exact absurd rfl nonempty
  | cons x xs ih =>
    obtain ⟨y, ys, rfl⟩ := List.exists_cons_of_ne_nil nonempty'
    have first := each x List.mem_cons_self
    cases xs with
    | nil =>
      cases ys with
      | nil =>
        simp only [List.map_cons, List.map_nil, separated, List.append_assoc] at same
        obtain ⟨rfl, rest⟩ := first y _ _ (ends r) (ends s) (List.append_cancel_left same)
        exact ⟨rfl, (List.cons.inj (List.append_cancel_left rest)).2⟩
      | cons y' ys =>
        simp only [List.map_cons, List.map_nil, separated, List.append_assoc, List.cons_append] at same
        obtain ⟨_, rest⟩ := first y _ _ (ends r) (comma _) (List.append_cancel_left same)
        exact absurd rest (apart _ _)
    | cons x' xs =>
      cases ys with
      | nil =>
        simp only [List.map_cons, List.map_nil, separated, List.append_assoc, List.cons_append] at same
        obtain ⟨_, rest⟩ := first y _ _ (comma _) (ends s) (List.append_cancel_left same)
        exact absurd rest.symm (apart _ _)
      | cons y' ys =>
        simp only [List.map_cons, separated, List.append_assoc, List.cons_append] at same ih
        obtain ⟨rfl, rest⟩ := first y _ _ (comma _) (comma _) (List.append_cancel_left same)
        obtain ⟨later, behind⟩ := @ih (y' :: ys) (by simp) (by simp)
          (fun z member => each z (List.mem_cons_of_mem _ member)) (List.cons.inj rest).2
        exact ⟨by rw [later], behind⟩

theorem enclose_cons (bracket : UInt8) (x : α) (xs : List α) (r : Bytes) :
    layout.enclose depth bracket close ((x :: xs).map print) ++ r =
      bracket :: (separated ((x :: xs).map fun x => layout.gap (depth + 1) ++ print x) ++
        (layout.gap depth ++ close :: r)) := by
  simp only [List.map_cons, Layout.enclose, List.cons_append, List.append_assoc, List.nil_append, List.map_map,
    Function.comp_def]

/-- The first item stands where an empty list has its closing bracket. -/
theorem separated_ne_close (closing : close = 93 ∨ close = 125)
    (begins : ∀ x rest, (print x ++ rest).head? ≠ some close) (x : α) (xs : List α) (r s : Bytes) :
    separated ((x :: xs).map fun x => layout.gap (depth + 1) ++ print x) ++ r ≠ close :: s := by
  intro equal
  obtain ⟨rest, front⟩ : ∃ rest, separated ((x :: xs).map fun x => layout.gap (depth + 1) ++ print x) ++ r =
      layout.gap (depth + 1) ++ (print x ++ rest) := by
    cases xs with
    | nil => exact ⟨r, by simp [separated]⟩
    | cons x' xs =>
      simp only [List.map_cons, separated, List.append_assoc]
      exact ⟨_, rfl⟩
  rw [front] at equal
  rcases layout.gap_blank (depth + 1) with none | ⟨blank, gap⟩
  · rw [none, List.nil_append] at equal
    refine begins x rest ?_
    rw [equal, List.head?_cons]
  · rw [gap, List.cons_append, List.cons.injEq] at equal
    rcases closing with rfl | rfl <;> exact absurd equal.1 (by decide)

/-- A bracketed list is read back when its items are, and none begins with the bracket at the end. -/
theorem enclose_inj (closing : close = 93 ∨ close = 125) {bracket : UInt8} {xs ys : List α} {r s : Bytes}
    (each : ∀ x ∈ xs, ReadBack print x) (begins : ∀ x rest, (print x ++ rest).head? ≠ some close)
    (same : layout.enclose depth bracket close (xs.map print) ++ r =
      layout.enclose depth bracket close (ys.map print) ++ s) : xs = ys ∧ r = s := by
  cases xs with
  | nil =>
    cases ys with
    | nil => exact ⟨rfl, (List.cons.inj (List.cons.inj same).2).2⟩
    | cons y ys =>
      rw [enclose_cons] at same
      exact absurd (List.cons.inj same).2.symm (separated_ne_close closing begins y ys _ _)
  | cons x xs =>
    cases ys with
    | nil =>
      rw [enclose_cons] at same
      exact absurd (List.cons.inj same).2 (separated_ne_close closing begins x xs _ _)
    | cons y ys =>
      rw [enclose_cons, enclose_cons] at same
      exact separated_inj closing (by simp) (by simp) each (List.cons.inj same).2

end

/-- No value begins with the bracket at the end of an array. -/
theorem Value.print_ne_bracket (layout : Layout) (depth : Nat) (value : Value) (rest : Bytes) :
    (value.print layout depth ++ rest).head? ≠ some 93 := by
  intro bracket
  obtain ⟨byte, bytes, front, kind⟩ := value.print_eq_cons layout depth
  rw [front, List.cons_append, List.head?_cons, Option.some.injEq] at bracket
  rw [bracket] at kind
  exact absurd value.kind_pos (by rw [← kind]; decide)

/-- A member is read back when its value is. -/
theorem printMember_readBack {layout : Layout} {depth : Nat} {member : Bytes × Value}
    (inner : ReadBack (Value.print layout depth) member.2) : ReadBack (printMember layout depth) member := by
  intro other r s closes closes' same
  simp only [printMember, List.append_assoc] at same
  obtain ⟨name, behind⟩ := string_unambiguous member.1 trivial other.1 trivial _ _ same
  obtain ⟨value, rest⟩ := inner other.2 r s closes closes' (List.append_cancel_left behind)
  exact ⟨Prod.ext name value, rest⟩

/-- The JSON text of a value is read back as that value, in each layout. -/
theorem Value.print_readBack (layout : Layout) (depth : Nat) (value : Value) :
    ReadBack (Value.print layout depth) value := by
  intro value' r s closes closes' same
  have kinds := Value.kind_eq same
  cases value with
  | text content =>
    cases value' with
    | text content' =>
      obtain ⟨rfl, rest⟩ := string_unambiguous content trivial content' trivial r s same
      exact ⟨rfl, rest⟩
    | _ => simp [kind] at kinds
  | number n =>
    cases value' with
    | number m =>
      obtain ⟨rfl, rest⟩ := number_inj closes closes' same
      exact ⟨rfl, rest⟩
    | _ => simp [kind] at kinds
  | boolean truth =>
    cases value' with
    | boolean truth' =>
      cases truth <;> cases truth'
      · exact ⟨rfl, List.append_cancel_left same⟩
      · exact absurd (List.cons.inj same).1 (by decide)
      · exact absurd (List.cons.inj same).1 (by decide)
      · exact ⟨rfl, List.append_cancel_left same⟩
    | _ => simp [kind] at kinds
  | null =>
    cases value' with
    | null => exact ⟨rfl, List.append_cancel_left same⟩
    | _ => simp [kind] at kinds
  | array items =>
    cases value' with
    | array items' =>
      rw [Value.print, Value.print, printItems_eq, printItems_eq] at same
      obtain ⟨rfl, rest⟩ := enclose_inj (Or.inl rfl)
        (fun item member => Value.print_readBack layout (depth + 1) item)
        (Value.print_ne_bracket layout (depth + 1)) same
      exact ⟨rfl, rest⟩
    | _ => simp [kind] at kinds
  | object members =>
    cases value' with
    | object members' =>
      rw [Value.print, Value.print, printMembers_eq, printMembers_eq] at same
      have each : ∀ member ∈ members, ReadBack (printMember layout (depth + 1)) member := fun member inside =>
        printMember_readBack (Value.print_readBack layout (depth + 1) member.2)
      obtain ⟨rfl, rest⟩ := enclose_inj (Or.inr rfl) each (fun member rest => by simp [printMember, string]) same
      exact ⟨rfl, rest⟩
    | _ => simp [kind] at kinds
termination_by sizeOf value
decreasing_by
  · have smaller := List.sizeOf_lt_of_mem member
    subst_vars
    simp only [Value.array.sizeOf_spec]
    omega
  · have smaller := List.sizeOf_lt_of_mem inside
    have inner : sizeOf member.2 < sizeOf member := by
      cases member
      simp only [Prod.mk.sizeOf_spec]
      omega
    subst_vars
    simp only [Value.object.sizeOf_spec]
    omega

theorem Value.print_injective (layout : Layout) (depth : Nat) : Function.Injective (Value.print layout depth) := by
  intro value value' same
  have closes : Closes [] := fun byte front => by simp at front
  exact (Value.print_readBack layout depth value value' [] [] closes closes (by rw [same])).1

end Kybernetes.Json
