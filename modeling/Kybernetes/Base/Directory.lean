import Mathlib.Logic.Function.Basic
import Mathlib.Tactic.Common

namespace Kybernetes

/-- Names and the files they name. Hard links are several names of one file; the files stand in the
order in which they were created. -/
structure Directory (ν β : Type) where
  entries : ν → Option Nat
  files : List β
  within : ∀ name file, entries name = some file → file < files.length

namespace Directory

variable {ν β : Type} [DecidableEq ν]

omit [DecidableEq ν] in
def empty : Directory ν β where
  entries := fun _ => none
  files := []
  within := by simp

omit [DecidableEq ν] in
/-- What is read under a name. -/
def read (directory : Directory ν β) (name : ν) : Option β :=
  (directory.entries name).bind fun file => directory.files[file]?

omit [DecidableEq ν] in
theorem read_empty (name : ν) : (empty : Directory ν β).read name = none :=
  rfl

/-- A new file under a name that is free. -/
def create (directory : Directory ν β) (name : ν) (content : β) : Option (Directory ν β) :=
  if directory.entries name = none then
    some {
      entries := Function.update directory.entries name (some directory.files.length)
      files := directory.files ++ [content]
      within := by
        intro other file held
        rw [List.length_append, List.length_singleton]
        by_cases same : other = name
        · rw [same, Function.update_self, Option.some.injEq] at held
          omega
        · rw [Function.update_of_ne same] at held
          have below := directory.within other file held
          omega }
  else none

omit [DecidableEq ν] in
/-- New content for the file that has the name, under all of its names. -/
def write (directory : Directory ν β) (name : ν) (content : β) : Directory ν β :=
  match directory.entries name with
  | none => directory
  | some file => {
      entries := directory.entries
      files := directory.files.set file content
      within := by
        intro other file held
        rw [List.length_set]
        exact directory.within other file held }

/-- A second name for a file. The new name has to be free. -/
def link (directory : Directory ν β) (name new : ν) : Option (Directory ν β) :=
  if directory.entries name ≠ none ∧ directory.entries new = none then
    some {
      entries := Function.update directory.entries new (directory.entries name)
      files := directory.files
      within := by
        intro other file held
        by_cases same : other = new
        · rw [same, Function.update_self] at held
          exact directory.within name file held
        · rw [Function.update_of_ne same] at held
          exact directory.within other file held }
  else none

/-- The name is gone; the file stays under its other names. -/
def unlink (directory : Directory ν β) (name : ν) : Directory ν β where
  entries := Function.update directory.entries name none
  files := directory.files
  within := by
    intro other file held
    by_cases same : other = name
    · rw [same, Function.update_self] at held
      cases held
    · rw [Function.update_of_ne same] at held
      exact directory.within other file held

variable {directory after : Directory ν β} {name other new : ν} {content : β}

omit [DecidableEq ν] in
theorem read_eq_none : directory.read name = none ↔ directory.entries name = none := by
  rw [read]
  cases held : directory.entries name with
  | none => simp
  | some file => simp [List.getElem?_eq_getElem (directory.within name file held)]

/-- Only the name that is bound anew is read differently. -/
theorem read_of_entries (directory : Directory ν β) (entry : Option Nat)
    (entries : after.entries = Function.update directory.entries name entry)
    (files : after.files = directory.files) (other : ν) :
    after.read other =
      if other = name then entry.bind fun file => directory.files[file]? else directory.read other := by
  rw [read, read, entries, files]
  by_cases same : other = name
  · rw [if_pos same, same, Function.update_self]
  · rw [if_neg same, Function.update_of_ne same]

omit [DecidableEq ν] in
/-- No other name has the file. -/
def Alone (directory : Directory ν β) (name : ν) : Prop :=
  ∀ other, directory.entries other = directory.entries name → other = name

theorem create_eq_some (created : directory.create name content = some after) :
    directory.read name = none ∧ after.Alone name ∧
      ∀ other, after.read other = if other = name then some content else directory.read other := by
  rw [create] at created
  by_cases free : directory.entries name = none
  · rw [if_pos free, Option.some.injEq] at created
    subst created
    refine ⟨read_eq_none.mpr free, fun other same => ?_, fun other => ?_⟩
    · by_contra distinct
      dsimp only at same
      rw [Function.update_of_ne distinct, Function.update_self] at same
      exact absurd (directory.within other _ same) (Nat.lt_irrefl _)
    · by_cases same : other = name
      · rw [if_pos same, same]
        simp [read]
      · rw [if_neg same]
        dsimp only [read]
        rw [Function.update_of_ne same]
        cases held : directory.entries other with
        | none => rfl
        | some file =>
          have below := directory.within other file held
          simp [List.getElem?_append_left below]
  · rw [if_neg free] at created
    cases created

theorem create_of_free (free : directory.read name = none) : ∃ after, directory.create name content = some after := by
  rw [create, if_pos (read_eq_none.mp free)]
  exact ⟨_, rfl⟩

/-- A write to a file with a single name changes what is read under that name. -/
theorem read_write (alone : directory.Alone name) (held : directory.read name ≠ none) (other : ν) :
    (directory.write name content).read other = if other = name then some content else directory.read other := by
  rw [ne_eq, read_eq_none] at held
  obtain ⟨file, entry⟩ := Option.ne_none_iff_exists'.mp held
  have below := directory.within name file entry
  have written : (directory.write name content).read other =
      (directory.entries other).bind fun i => (directory.files.set file content)[i]? := by
    simp only [write, entry, read]
  rw [written]
  by_cases same : other = name
  · rw [if_pos same, same, entry]
    simp [below]
  · rw [if_neg same, read]
    cases place : directory.entries other with
    | none => rfl
    | some i =>
      have distinct : file ≠ i := fun equal => same (alone other (by rw [place, entry, equal]))
      simp [List.getElem?_set_ne distinct]

theorem link_eq_some (linked : directory.link name new = some after) :
    directory.read new = none ∧
      ∀ other, after.read other = if other = new then directory.read name else directory.read other := by
  rw [link] at linked
  by_cases free : directory.entries name ≠ none ∧ directory.entries new = none
  · rw [if_pos free, Option.some.injEq] at linked
    subst linked
    exact ⟨read_eq_none.mpr free.2, read_of_entries directory _ rfl rfl⟩
  · rw [if_neg free] at linked
    cases linked

theorem link_of_free (held : directory.read name ≠ none) (free : directory.read new = none) :
    ∃ after, directory.link name new = some after := by
  rw [ne_eq, read_eq_none] at held
  rw [link, if_pos ⟨held, read_eq_none.mp free⟩]
  exact ⟨_, rfl⟩

theorem read_unlink (other : ν) :
    (directory.unlink name).read other = if other = name then none else directory.read other := by
  have entries : (directory.unlink name).entries = Function.update directory.entries name none := rfl
  exact read_of_entries directory none entries rfl other

end Directory

end Kybernetes
