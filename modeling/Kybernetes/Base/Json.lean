import Kybernetes.Base.Decimal
import Kybernetes.Base.Hex

namespace Kybernetes.Json

/-- The UTF-8 bytes of a text without characters outside ASCII. -/
def ascii (literal : String) : Bytes :=
  literal.toList.map fun character => UInt8.ofNat character.toNat

/-- One byte of a string literal, the way the compact writer escapes it. Bytes
of characters outside ASCII are written as they are. -/
def escape (byte : UInt8) : Bytes :=
  if byte = 34 then [92, 34]
  else if byte = 92 then [92, 92]
  else if byte = 8 then [92, 98]
  else if byte = 9 then [92, 116]
  else if byte = 10 then [92, 110]
  else if byte = 12 then [92, 102]
  else if byte = 13 then [92, 114]
  else if byte < 32 then [92, 117, 48, 48, hexDigit (byte / 16), hexDigit (byte % 16)]
  else [byte]

/-- A text between quotation marks. -/
def string (text : Bytes) : Bytes :=
  34 :: (text.flatMap escape ++ [34])

def number (n : Nat) : Bytes :=
  decimal n

def boolean (value : Bool) : Bytes :=
  if value then ascii "true" else ascii "false"

def null : Bytes :=
  ascii "null"

/-- `Some(value)` is written as the value and `None` as `null`. -/
def optional (value : Option Bytes) : Bytes :=
  match value with
  | some text => string text
  | none => null

/-- Parts with commas between them. -/
def separated : List Bytes → Bytes
  | [] => []
  | [part] => part
  | part :: next :: rest => part ++ 44 :: separated (next :: rest)

def array (items : List Bytes) : Bytes :=
  91 :: (separated items ++ [93])

def member (entry : String × Bytes) : Bytes :=
  string (ascii entry.1) ++ 58 :: entry.2

/-- An object, given as its names with the JSON of their values. -/
def object (members : List (String × Bytes)) : Bytes :=
  123 :: (separated (members.map member) ++ [125])

/-- A member as the pretty writer puts it on its line. -/
def prettyMember (entry : String × Bytes) : Bytes :=
  32 :: 32 :: (string (ascii entry.1) ++ 58 :: 32 :: entry.2)

/-- Lines with a comma at the end of each but the last. -/
def separatedLines : List Bytes → Bytes
  | [] => []
  | [line] => line
  | line :: next :: rest => line ++ 44 :: 10 :: separatedLines (next :: rest)

/-- An object with at least one member, from the pretty writer. -/
def prettyObject (members : List (String × Bytes)) : Bytes :=
  123 :: 10 :: (separatedLines (members.map prettyMember) ++ [10, 125])

/-- An enum variant with data: an object with the name of the variant. -/
def variant (name : String) (content : Bytes) : Bytes :=
  object [(name, content)]

theorem separated_length (parts : List Bytes) :
    (separated parts).length = (parts.map List.length).sum + (parts.length - 1) := by
  induction parts with
  | nil => rfl
  | cons part rest ih =>
    cases rest with
    | nil => simp [separated]
    | cons next rest =>
      simp only [separated, List.length_append, List.length_cons, List.map_cons, List.sum_cons] at ih ⊢
      omega

theorem array_length (items : List Bytes) :
    (array items).length = (items.map List.length).sum + (items.length - 1) + 2 := by
  simp only [array, List.length_cons, List.length_append, separated_length, List.length_nil]

theorem member_length (entry : String × Bytes) :
    (member entry).length = (string (ascii entry.1)).length + entry.2.length + 1 := by
  simp only [member, List.length_append, List.length_cons]
  omega

/-- The names and the values of an object, with a colon for each member, a
comma between two, and the braces. -/
theorem object_length (members : List (String × Bytes)) :
    (object members).length =
      (members.map fun entry => (string (ascii entry.1)).length + entry.2.length + 1).sum +
        (members.length - 1) + 2 := by
  have each : members.map (List.length ∘ member) =
      members.map fun entry => (string (ascii entry.1)).length + entry.2.length + 1 :=
    List.map_congr_left fun entry _ => member_length entry
  simp only [object, List.length_cons, List.length_append, separated_length, List.length_nil, List.length_map,
    List.map_map, each]

theorem separatedLines_length (lines : List Bytes) :
    (separatedLines lines).length = (lines.map List.length).sum + 2 * (lines.length - 1) := by
  induction lines with
  | nil => rfl
  | cons line rest ih =>
    cases rest with
    | nil => simp [separatedLines]
    | cons next rest =>
      simp only [separatedLines, List.length_append, List.length_cons, List.map_cons, List.sum_cons] at ih ⊢
      omega

theorem prettyObject_length (members : List (String × Bytes)) :
    (prettyObject members).length =
      (members.map fun entry => (string (ascii entry.1)).length + entry.2.length + 4).sum +
        2 * (members.length - 1) + 4 := by
  have each : members.map (List.length ∘ prettyMember) =
      members.map fun entry => (string (ascii entry.1)).length + entry.2.length + 4 := by
    refine List.map_congr_left fun entry _ => ?_
    simp only [Function.comp_apply, prettyMember, List.length_cons, List.length_append]
    omega
  simp only [prettyObject, List.length_cons, List.length_append, separatedLines_length, List.length_nil,
    List.length_map, List.map_map, each]

/-- What a text needs between its quotation marks. -/
theorem string_length (text : Bytes) : (string text).length = (text.flatMap escape).length + 2 := by
  simp only [string, List.length_cons, List.length_append, List.length_nil]

/-- A byte that the writer does not escape. -/
def Plain (byte : UInt8) : Prop :=
  escape byte = [byte]

instance (byte : UInt8) : Decidable (Plain byte) :=
  inferInstanceAs (Decidable (escape byte = [byte]))

theorem string_length_of_plain {text : Bytes} (plain : ∀ byte ∈ text, Plain byte) :
    (string text).length = text.length + 2 := by
  rw [string_length]
  congr 1
  induction text with
  | nil => rfl
  | cons byte text ih =>
    have first : escape byte = [byte] := plain byte (by simp)
    rw [List.flatMap_cons, first, List.length_append, List.length_singleton, List.length_cons,
      ih fun other later => plain other (by simp [later])]
    omega

theorem plain_of_isHexDigit : ∀ byte : UInt8, isHexDigit byte = true → Plain byte :=
  forall_byte (by decide +kernel)

/-! ### Reading back -/

/-- The byte that an escape sequence stands for. -/
def unescape : Bytes → UInt8
  | [byte] => byte
  | [_, 98] => 8
  | [_, 116] => 9
  | [_, 110] => 10
  | [_, 102] => 12
  | [_, 114] => 13
  | [_, byte] => byte
  | [_, _, _, _, high, low] => (hexValue high).getD 0 * 16 + (hexValue low).getD 0
  | _ => 0

theorem unescape_escape : ∀ byte, unescape (escape byte) = byte :=
  forall_byte (by decide +kernel)

/-- How many bytes the escape sequence at the front has. -/
def escapeSpan (bytes : Bytes) : Nat :=
  if bytes[0]? = some 92 then if bytes[1]? = some 117 then 6 else 2 else 1

theorem escape_shape : ∀ byte, escape byte = [byte] ∧ byte ≠ 92 ∧ byte ≠ 34 ∨
    (escape byte)[0]? = some 92 ∧ 2 ≤ (escape byte).length ∧ escapeSpan (escape byte) = (escape byte).length :=
  forall_byte (by decide +kernel)

theorem escapeSpan_append (byte : UInt8) (rest : Bytes) :
    escapeSpan (escape byte ++ rest) = (escape byte).length := by
  rcases escape_shape byte with ⟨plain, other, _⟩ | ⟨_, long, span⟩
  · rw [plain, escapeSpan, List.singleton_append, List.getElem?_cons_zero, if_neg (by simpa using other)]
    rfl
  · rw [← span, escapeSpan, escapeSpan, List.getElem?_append_left (by omega), List.getElem?_append_left (by omega)]

/-- Whatever follows an escaped byte, the byte and the rest can be read back. -/
theorem escape_unambiguous : Unambiguous Set.univ escape := by
  intro a _ b _ r s same
  have length : (escape a).length = (escape b).length := by
    rw [← escapeSpan_append a r, ← escapeSpan_append b s, same]
  obtain ⟨escaped, rest⟩ := List.append_inj same length
  refine ⟨?_, rest⟩
  rw [← unescape_escape a, ← unescape_escape b, escaped]

theorem escape_front_ne (byte : UInt8) (rest : Bytes) : (escape byte ++ rest)[0]? ≠ some 34 := by
  rcases escape_shape byte with ⟨plain, _, other⟩ | ⟨first, long, _⟩
  · rw [plain, List.singleton_append, List.getElem?_cons_zero]
    simpa using other
  · rw [List.getElem?_append_left (by omega), first]
    decide

theorem string_unambiguous : Unambiguous Set.univ string := by
  intro a _ b _ r s same
  simp only [string, List.cons_append, List.append_assoc, List.nil_append, List.cons.injEq, true_and] at same
  induction a generalizing b with
  | nil =>
    cases b with
    | nil => exact ⟨rfl, (List.cons.inj same).2⟩
    | cons byte b =>
      have front := congrArg (fun bytes : Bytes => bytes[0]?) same
      rw [List.flatMap_cons, List.append_assoc] at front
      exact absurd front.symm (escape_front_ne byte _)
  | cons byte a ih =>
    cases b with
    | nil =>
      have front := congrArg (fun bytes : Bytes => bytes[0]?) same
      rw [List.flatMap_cons, List.append_assoc] at front
      exact absurd front (escape_front_ne byte _)
    | cons byte' b =>
      rw [List.flatMap_cons, List.flatMap_cons, List.append_assoc, List.append_assoc] at same
      obtain ⟨first, later⟩ := escape_unambiguous byte trivial byte' trivial _ _ same
      obtain ⟨rest, behind⟩ := ih trivial b trivial later
      exact ⟨by rw [first, rest], behind⟩

theorem string_inj {a b : Bytes} (same : string a = string b) : a = b :=
  (string_unambiguous a trivial b trivial [] [] (by rw [List.append_nil, List.append_nil, same])).1

theorem member_unambiguous (name : String) : Unambiguous Set.univ fun text => member (name, string text) := by
  intro a _ b _ r s same
  simp only [member, List.append_assoc, List.cons_append] at same
  exact string_unambiguous a trivial b trivial r s (List.cons.inj (List.append_cancel_left same)).2

/-- The members of an object of texts. -/
def textMembers (names : List String) (texts : List Bytes) : List (String × Bytes) :=
  names.zip (texts.map string)

theorem separated_texts_inj {names : List String} {texts texts' : List Bytes} {r s : Bytes}
    (length : texts.length = names.length) (length' : texts'.length = names.length)
    (same : separated ((textMembers names texts).map member) ++ r =
      separated ((textMembers names texts').map member) ++ s) : texts = texts' := by
  induction names generalizing texts texts' with
  | nil =>
    rw [List.length_nil, List.length_eq_zero_iff] at length length'
    rw [length, length']
  | cons name names ih =>
    obtain ⟨text, texts, rfl⟩ := List.exists_cons_of_length_eq_add_one length
    obtain ⟨text', texts', rfl⟩ := List.exists_cons_of_length_eq_add_one length'
    rw [List.length_cons, List.length_cons, Nat.add_right_cancel_iff] at length length'
    cases names with
    | nil =>
      rw [List.length_nil, List.length_eq_zero_iff] at length length'
      subst length length'
      rw [(member_unambiguous name text trivial text' trivial r s same).1]
    | cons next names =>
      obtain ⟨second, rest, rfl⟩ := List.exists_cons_of_length_eq_add_one length
      obtain ⟨second', rest', rfl⟩ := List.exists_cons_of_length_eq_add_one length'
      simp only [textMembers, List.map_cons, List.zip_cons_cons, separated, List.append_assoc,
        List.cons_append] at same ih
      obtain ⟨first, behind⟩ := member_unambiguous name text trivial text' trivial _ _ same
      rw [first, @ih (second :: rest) (second' :: rest') length length' (List.cons.inj behind).2]

/-- An object of texts gives back the texts. -/
theorem object_texts_inj {names : List String} {texts texts' : List Bytes} (length : texts.length = names.length)
    (length' : texts'.length = names.length)
    (same : object (textMembers names texts) = object (textMembers names texts')) : texts = texts' :=
  separated_texts_inj length length' (List.cons.inj same).2

theorem newline_notMem_string (text : Bytes) : 10 ∉ string text := by
  have escaped : ∀ byte, 10 ∉ escape byte := forall_byte (by decide +kernel)
  intro inside
  simp only [string, List.mem_cons, List.mem_append, List.mem_flatMap, List.not_mem_nil, or_false] at inside
  rcases inside with quote | ⟨byte, _, inside⟩ | quote
  · cases quote
  · exact escaped byte inside
  · cases quote

theorem newline_notMem_number (n : Nat) : 10 ∉ number n :=
  fun inside => absurd (decimal_mem inside).1 (by decide)

/-- Lines without a line break are read back one after another. -/
theorem separatedLines_inj {lines lines' : List Bytes} {r s : Bytes} (length : lines.length = lines'.length)
    (free : ∀ line ∈ lines, 10 ∉ line) (free' : ∀ line ∈ lines', 10 ∉ line)
    (same : separatedLines lines ++ 10 :: r = separatedLines lines' ++ 10 :: s) : lines = lines' := by
  induction lines generalizing lines' with
  | nil => exact (List.length_eq_zero_iff.mp length.symm).symm
  | cons line lines ih =>
    obtain ⟨line', lines', rfl⟩ := List.exists_cons_of_length_eq_add_one length.symm
    rw [List.length_cons, List.length_cons, Nat.add_right_cancel_iff] at length
    have first := free line (List.mem_cons_self ..)
    have first' := free' line' (List.mem_cons_self ..)
    cases lines with
    | nil =>
      obtain rfl := List.length_eq_zero_iff.mp length.symm
      rw [(append_separator_inj first first' same).1]
    | cons next rest =>
      obtain ⟨next', rest', rfl⟩ := List.exists_cons_of_length_eq_add_one length.symm
      have comma : ∀ l : Bytes, 10 ∉ l → 10 ∉ l ++ [44] := fun l free => by simpa using free
      have split : (line ++ [44]) ++ 10 :: (separatedLines (next :: rest) ++ 10 :: r) =
          (line' ++ [44]) ++ 10 :: (separatedLines (next' :: rest') ++ 10 :: s) := by
        simpa [separatedLines] using same
      obtain ⟨ends, behind⟩ := append_separator_inj (comma line first) (comma line' first') split
      rw [List.append_cancel_right ends,
        ih length (fun l inside => free l (List.mem_cons_of_mem _ inside))
          (fun l inside => free' l (List.mem_cons_of_mem _ inside)) behind]

/-- A pretty object whose values have no line break gives back its members. -/
theorem prettyObject_inj {members members' : List (String × Bytes)}
    (names : members.map Prod.fst = members'.map Prod.fst) (free : ∀ entry ∈ members, 10 ∉ entry.2)
    (free' : ∀ entry ∈ members', 10 ∉ entry.2) (same : prettyObject members = prettyObject members') :
    members = members' := by
  have line : ∀ entry : String × Bytes, 10 ∉ entry.2 → 10 ∉ prettyMember entry := by
    intro entry value inside
    simp only [prettyMember, List.mem_cons, List.mem_append] at inside
    rcases inside with blank | blank | name | colon | blank | inside
    · cases blank
    · cases blank
    · exact newline_notMem_string _ name
    · cases colon
    · cases blank
    · exact value inside
  have lines : ∀ entries : List (String × Bytes), (∀ entry ∈ entries, 10 ∉ entry.2) →
      ∀ l ∈ entries.map prettyMember, 10 ∉ l := by
    intro entries each l inside
    obtain ⟨entry, member, rfl⟩ := List.mem_map.mp inside
    exact line entry (each entry member)
  have length := congrArg List.length names
  rw [List.length_map, List.length_map] at length
  have written := separatedLines_inj (by rw [List.length_map, List.length_map, length]) (lines members free)
    (lines members' free') (List.cons.inj (List.cons.inj same).2).2
  clear same free free' lines
  induction members generalizing members' with
  | nil => exact (List.length_eq_zero_iff.mp length.symm).symm
  | cons entry members ih =>
    obtain ⟨entry', members', rfl⟩ := List.exists_cons_of_length_eq_add_one length.symm
    simp only [List.map_cons, List.cons.injEq] at names written
    have value : entry.2 = entry'.2 := by
      have tail := written.1
      simp only [prettyMember, names.1, List.cons.injEq, true_and, List.append_cancel_left_eq] at tail
      exact tail
    rw [Prod.ext names.1 value, ih names.2 (by simpa using length) written.2]

end Kybernetes.Json
