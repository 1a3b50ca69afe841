import Kybernetes.Base.Disk

namespace Kybernetes

/-- A new file with the content, all of which is on the disk at the end. -/
def FileProgram.writeNew {ν : Type} (name : ν) (bytes : Bytes) (notCreated notWritten notSynced : String) :
    FileProgram ν Unit := do
  let created ← Program.ask (.createNew name)
  let file ← Program.orError created notCreated
  let written ← Program.ask (.writeAll file bytes)
  let () ← Program.orError written notWritten
  let synced ← Program.ask (.syncAll file)
  Program.orError synced notSynced

/-- A new file that takes the place of another one, all at once. -/
def FileProgram.replace {ν : Type} (temp final : ν) (bytes : Bytes)
    (notCreated notWritten notSynced notMoved : String) : FileProgram ν Unit := do
  let () ← FileProgram.writeNew temp bytes notCreated notWritten notSynced
  let moved ← Program.ask (.rename temp final)
  let () ← Program.orError moved notMoved
  let _ ← Program.ask .syncDirectory
  return ()

namespace Disk

variable {ν : Type} [DecidableEq ν] {s t u : Disk ν} {name own new : ν} {file : Nat} {bytes : Bytes}

/-! ### What a call can do -/

section Calls

variable (chance : FileChance ν) (s)

theorem perform_createDirectory :
    (∃ error, chance.refusal = some error ∧
      perform chance .createDirectory s = (.error error, s.settle chance.settled)) ∨
    perform chance .createDirectory s = (.ok (), s.settle chance.settled) := by
  unfold perform carryOut
  cases chance.refusal with
  | some error => exact Or.inl ⟨error, rfl, rfl⟩
  | none => exact Or.inr rfl

theorem perform_createNew (name : ν) :
    (∃ error, (chance.refusal = none → s.entries name ≠ none) ∧
      perform chance (.createNew name) s = (.error error, s.settle chance.settled)) ∨
    perform chance (.createNew name) s = (.ok s.count, (s.settle chance.settled).create name) := by
  unfold perform carryOut
  cases chance.refusal with
  | some error => exact Or.inl ⟨error, nofun, rfl⟩
  | none =>
    by_cases free : s.entries name = none
    · exact Or.inr (if_pos free)
    · exact Or.inl ⟨_, fun _ => free, if_neg free⟩

theorem perform_writeAll (file : Nat) (bytes : Bytes) :
    (∃ error content, chance.refusal = some error ∧ perform chance (.writeAll file bytes) s =
      (.error error, (s.settle chance.settled).store file content)) ∨
    perform chance (.writeAll file bytes) s =
      (.ok (), (s.settle chance.settled).store file { bytes := (s.files file).bytes ++ bytes, synced := false }) := by
  unfold perform carryOut
  cases chance.refusal with
  | some error => exact Or.inl ⟨error, _, rfl, rfl⟩
  | none => exact Or.inr rfl

theorem perform_syncAll (file : Nat) :
    (∃ error, chance.refusal = some error ∧
      perform chance (.syncAll file) s = (.error error, s.settle chance.settled)) ∨
    perform chance (.syncAll file) s =
      (.ok (), (s.settle chance.settled).store file { bytes := (s.files file).bytes, synced := true }) := by
  unfold perform carryOut
  cases chance.refusal with
  | some error => exact Or.inl ⟨error, rfl, rfl⟩
  | none => exact Or.inr rfl

theorem perform_rename {name new : ν} (held : s.entries name = some file) (apart : s.entries new ≠ some file) :
    (∃ error, chance.refusal = some error ∧
      perform chance (.rename name new) s = (.error error, s.settle chance.settled)) ∨
    perform chance (.rename name new) s =
      (.ok (), ((s.settle chance.settled).rebind new (some name)).rebind name none) := by
  have bound : s.entries name ≠ none := by
    rw [held]
    exact Option.some_ne_none file
  have distinct : s.entries name ≠ s.entries new := by
    rw [held]
    exact apart.symm
  unfold perform carryOut
  cases chance.refusal with
  | some error => exact Or.inl ⟨error, rfl, rfl⟩
  | none => exact Or.inr ((if_neg bound).trans (if_neg distinct))

theorem perform_hardLink {name : ν} (held : s.entries name = some file) (new : ν) :
    (∃ error, perform chance (.hardLink name new) s = (.error error, s.settle chance.settled)) ∨
    s.entries new = none ∧
      perform chance (.hardLink name new) s = (.ok (), (s.settle chance.settled).rebind new (some name)) := by
  have bound : s.entries name ≠ none := by
    rw [held]
    exact Option.some_ne_none file
  unfold perform carryOut
  cases chance.refusal with
  | some error => exact Or.inl ⟨error, rfl⟩
  | none =>
    by_cases free : s.entries new = none
    · exact Or.inr ⟨free, (if_neg bound).trans (if_pos free)⟩
    · exact Or.inl ⟨_, (if_neg bound).trans (if_neg free)⟩

theorem perform_removeFile (name : ν) :
    (perform chance (.removeFile name) s).2 = s.settle chance.settled ∨
    (perform chance (.removeFile name) s).2 = (s.settle chance.settled).rebind name none := by
  unfold perform carryOut
  cases chance.refusal with
  | some error => exact Or.inl rfl
  | none =>
    by_cases free : s.entries name = none
    · exact Or.inl (congrArg Prod.snd (if_pos free))
    · exact Or.inr (congrArg Prod.snd (if_neg free))

theorem perform_pathExists (name : ν) : (perform chance (.pathExists name) s).2 = s.settle chance.settled :=
  rfl

theorem perform_openFile (name : ν) :
    (∃ error, chance.refusal = some error ∧
      perform chance (.openFile name) s = (.error (.other error), s.settle chance.settled)) ∨
    s.entries name = none ∧ perform chance (.openFile name) s = (.error .notFound, s.settle chance.settled) ∨
    ∃ file, s.entries name = some file ∧ perform chance (.openFile name) s = (.ok file, s.settle chance.settled) := by
  unfold perform carryOut
  cases chance.refusal with
  | some error => exact Or.inl ⟨error, rfl, rfl⟩
  | none =>
    refine Or.inr ?_
    cases held : s.entries name with
    | none => exact Or.inl ⟨rfl, by simp only [settle, held]⟩
    | some file => exact Or.inr ⟨file, rfl, by simp only [settle, held]⟩

theorem perform_readToEnd (file : Nat) :
    (∃ error, chance.refusal = some error ∧
      perform chance (.readToEnd file) s = (.error error, s.settle chance.settled)) ∨
    perform chance (.readToEnd file) s = (.ok (s.files file).bytes, s.settle chance.settled) := by
  unfold perform carryOut
  cases chance.refusal with
  | some error => exact Or.inl ⟨error, rfl, rfl⟩
  | none => exact Or.inr rfl

theorem perform_syncDirectory :
    ∃ settled, (perform chance .syncDirectory s).2 = s.settle settled ∧
      (chance.refusal = none → settled = fun _ => true) := by
  unfold perform carryOut
  cases chance.refusal with
  | some error => exact ⟨chance.settled, rfl, nofun⟩
  | none => exact ⟨fun _ => true, rfl, fun _ => rfl⟩

end Calls

/-! ### A file under a name of one's own -/

/-- Nothing has changed but for what is under one name. -/
structure Within (own : ν) (s t : Disk ν) : Prop where
  spares : ∀ name, name ≠ own → Spares name s t
  longer : Extends s t

/-- The name has a file of its own. -/
structure Owns (disk : Disk ν) (name : ν) (file : Nat) (content : File) : Prop where
  entry : disk.entries name = some file
  alone : disk.Private name file
  holds : disk.files file = content

omit [DecidableEq ν] in
theorem Within.trans (first : Within own s t) (rest : Within own t u) : Within own s u :=
  ⟨fun name other => (first.spares name other).trans (rest.spares name other), first.longer.trans rest.longer⟩

omit [DecidableEq ν] in
theorem settle_within (own : ν) (s : Disk ν) (settled : ν → Bool) : Within own s (s.settle settled) :=
  ⟨fun name _ => settle_spares s settled name, settle_extends s settled⟩

theorem create_within (own : ν) (s : Disk ν) : Within own s (s.create own) :=
  ⟨fun _ other => create_spares other.symm, create_extends s own⟩

theorem unbind_within (own : ν) (s : Disk ν) : Within own s (s.rebind own none) :=
  ⟨fun _ other => rebind_spares other.symm nofun, rebind_extends s own none⟩

omit [DecidableEq ν] in
theorem Owns.of_spares {content : File} (owns : s.Owns name file content) (spares : Spares name s t) :
    t.Owns name file content := by
  obtain ⟨alone, same⟩ := spares.files file owns.alone
  exact ⟨spares.entry.trans owns.entry, alone, same.trans owns.holds⟩

theorem create_owns (own : ν) (s : Disk ν) :
    (s.create own).Owns own s.count { bytes := [], synced := false } :=
  ⟨Function.update_self .., create_private s own, Function.update_self ..⟩

omit [DecidableEq ν] in
theorem Owns.store {content : File} (owns : s.Owns own file content) (unsynced : content.synced = false)
    (next : File) : Within own s (s.store file next) ∧ (s.store file next).Owns own file next := by
  have fresh : (s.files file).synced = false := by
    rw [owns.holds]
    exact unsynced
  exact ⟨⟨fun name other => store_spares other.symm owns.entry next, store_extends fresh next⟩,
    owns.entry, owns.alone.store next, Function.update_self ..⟩

/-- Writing a new file changes nothing under other names, whatever happens, and what the others leave
alone of its own name they leave to it. -/
theorem writeNew_honours {rely guarantee : Disk ν → Disk ν → Prop} {keeps : Disk ν → Prop}
    (spared : ∀ s t, rely s t → Spares own s t) (permitted : ∀ s t, keeps s → Within own s t → guarantee s t)
    (stable : ∀ s t, rely s t → keeps s → keeps t) (kept : ∀ s t, Within own s t → keeps s → keeps t)
    (start : keeps s) (bytes : Bytes) (notCreated notWritten notSynced : String) :
    (FileProgram.writeNew own bytes notCreated notWritten notSynced).Honours perform rely guarantee
      (fun result t => keeps t ∧
        (result = .ok () → ∃ file, t.Owns own file { bytes, synced := true })) s := by
  simp only [FileProgram.writeNew, Program.ask_bind]
  intro t others chance
  have here := stable s t others start
  have settled := settle_within own t chance.settled
  rcases perform_createNew t chance own with ⟨error, _, run⟩ | run
  · rw [run]
    exact ⟨permitted t _ here settled, kept t _ settled here, nofun⟩
  rw [run]
  have made := settled.trans (create_within own (t.settle chance.settled))
  have owns := create_owns own (t.settle chance.settled)
  refine ⟨permitted t _ here made, ?_⟩
  intro u others chance
  have here := stable _ u others (kept t _ made here)
  have owns := owns.of_spares (spared _ u others)
  have settled := settle_within own u chance.settled
  have owns := owns.of_spares (settle_spares u chance.settled own)
  rcases perform_writeAll u chance t.count bytes with ⟨error, content, _, run⟩ | run
  · rw [run]
    have stored := settled.trans (owns.store rfl content).1
    exact ⟨permitted u _ here stored, kept u _ stored here, nofun⟩
  rw [run]
  have empty : (u.files t.count).bytes ++ bytes = bytes := by
    rw [show u.files t.count = { bytes := [], synced := false } from owns.holds, List.nil_append]
  rw [empty]
  obtain ⟨stored, owns⟩ := owns.store rfl { bytes, synced := false }
  have stored := settled.trans stored
  refine ⟨permitted u _ here stored, ?_⟩
  intro v others chance
  have here := stable _ v others (kept u _ stored here)
  have owns := owns.of_spares (spared _ v others)
  have settled := settle_within own v chance.settled
  have owns := owns.of_spares (settle_spares v chance.settled own)
  rcases perform_syncAll v chance t.count with ⟨error, _, run⟩ | run
  · rw [run]
    exact ⟨permitted v _ here settled, kept v _ settled here, nofun⟩
  rw [run]
  have written : (v.files t.count).bytes = bytes := by
    rw [show v.files t.count = { bytes, synced := false } from owns.holds]
  rw [written]
  obtain ⟨stored, owns⟩ := owns.store rfl { bytes, synced := true }
  have stored := settled.trans stored
  exact ⟨permitted v _ here stored, kept v _ stored here, fun _ => ⟨t.count, owns⟩⟩

/-! ### A file that takes the place of another one -/

variable {final : ν} {allowed : Set (Option Bytes)} {before : Option Bytes}

/-- The name keeps what it has or gets the content, and is whole all the time. -/
def Replaces (allowed : Set (Option Bytes)) (final : ν) (bytes : Bytes) (s t : Disk ν) : Prop :=
  Whole allowed final s → Whole allowed final t ∧ (t.read final = s.read final ∨ t.read final = some bytes)

omit [DecidableEq ν] in
theorem Within.replaces (within : Within own s t) (apart : final ≠ own) : Replaces allowed final bytes s t := by
  intro whole
  obtain ⟨still, same⟩ := whole.of_spares (within.spares final apart) within.longer
  exact ⟨still, Or.inl same⟩

omit [DecidableEq ν] in
theorem Replaces.of_path (path : Relation.ReflTransGen (Replaces allowed final bytes) s t) :
    Replaces allowed final bytes s t := by
  induction path with
  | refl => exact fun whole => ⟨whole, Or.inl rfl⟩
  | tail _ step ih =>
    intro whole
    obtain ⟨mid, shown⟩ := ih whole
    obtain ⟨last, shown'⟩ := step mid
    refine ⟨last, ?_⟩
    rcases shown' with same | new
    · rw [same]
      exact shown
    · exact Or.inr new

/-- A file of one's own under another name. -/
theorem Whole.move {content : File} (whole : Whole allowed final s) (owns : s.Owns own file content)
    (synced : content.synced = true) (permitted : some content.bytes ∈ allowed) (apart : final ≠ own) :
    Whole allowed final ((s.rebind final (some own)).rebind own none) ∧
      ((s.rebind final (some own)).rebind own none).read final = some content.bytes := by
  have source : (some own).bind s.entries = some file := owns.entry
  have moved : Whole allowed final (s.rebind final (some own)) := by
    refine whole.rebind (fun other held => ?_) ?_
    · rw [source, Option.some.injEq] at held
      rw [← held, owns.holds]
      exact synced
    · rw [source, Option.map_some, owns.holds]
      exact permitted
  have entry : (s.rebind final (some own)).entries final = some file :=
    (rebind_entry s final (some own)).trans source
  have shown : (s.rebind final (some own)).read final = some content.bytes := by
    rw [Disk.read, entry, Option.map_some, show (s.rebind final (some own)).files file = content from owns.holds]
  obtain ⟨still, same⟩ := moved.of_spares ((unbind_within own _).spares final apart) (unbind_within own _).longer
  exact ⟨still, same.trans shown⟩

/-- On its own, a replacement ends with the new content or, with an error, as it began. -/
theorem replace_honours (apart : final ≠ own) (permitted : some bytes ∈ allowed) (whole : Whole allowed final s)
    (shown : s.read final = before) (notCreated notWritten notSynced notMoved : String) :
    (FileProgram.replace own final bytes notCreated notWritten notSynced notMoved).Honours perform
      (fun s t => t = s) (Replaces allowed final bytes)
      (fun result t => Whole allowed final t ∧ (result = .ok () → t.read final = some bytes) ∧
        ∀ fault, result = .error fault → t.read final = before) s := by
  have within : ∀ s t, Within own s t → Whole allowed final s ∧ s.read final = before →
      Whole allowed final t ∧ t.read final = before := by
    rintro s t near ⟨whole, shown⟩
    obtain ⟨still, same⟩ := whole.of_spares (near.spares final apart) near.longer
    exact ⟨still, same.trans shown⟩
  refine Program.Honours.bind ((writeNew_honours (fun s t same => ?_) (fun s t _ near => near.replaces apart)
    (fun s t same holds => ?_) within ⟨whole, shown⟩ bytes notCreated notWritten notSynced).mono ?_)
  · rw [same]
    exact Spares.refl own s
  · rw [same]
    exact holds
  rintro result t ⟨⟨whole, shown⟩, written⟩
  cases result with
  | error fault => exact ⟨whole, nofun, fun _ _ => shown⟩
  | ok _ =>
    obtain ⟨file, owns⟩ := written rfl
    rw [Program.ask_bind]
    intro u same chance
    subst same
    have taken : u.entries final ≠ some file := owns.alone.entries final apart
    have settled := settle_within own u chance.settled
    obtain ⟨whole', shown'⟩ := within _ _ settled ⟨whole, shown⟩
    rcases perform_rename u chance owns.entry taken with ⟨error, _, run⟩ | run
    · rw [run]
      exact ⟨settled.replaces apart, whole', nofun, fun _ _ => shown'⟩
    rw [run]
    obtain ⟨moved, new⟩ := whole'.move (owns.of_spares (settle_spares u chance.settled own)) rfl permitted apart
    refine ⟨fun _ => ⟨moved, Or.inr new⟩, ?_⟩
    intro v same chance'
    subst same
    let published := ((u.settle chance.settled).rebind final (some own)).rebind own none
    obtain ⟨settled, run, _⟩ := perform_syncDirectory published chance'
    rw [run]
    have last := settle_within own published settled
    obtain ⟨whole'', same⟩ := moved.of_spares (last.spares final apart) last.longer
    exact ⟨last.replaces apart, whole'', fun _ => same.trans new, nofun⟩

/-- A replacement whose calls are not refused goes through, and the disk has it then. -/
theorem replace_fine (bytes : Bytes) (apart : final ≠ own) (free : s.entries own = none) {chances : List (FileChance ν)}
    (enough : 5 ≤ chances.length) (fine : ∀ chance ∈ chances, chance.refusal = none)
    (notCreated notWritten notSynced notMoved : String) :
    ∃ t, (FileProgram.replace own final bytes notCreated notWritten notSynced notMoved).runFor perform chances s =
      (.done (.ok ()), t) ∧ t.kept final = t.entries final := by
  rcases chances with _ | ⟨c₁, _ | ⟨c₂, _ | ⟨c₃, _ | ⟨c₄, _ | ⟨c₅, rest⟩⟩⟩⟩⟩
  iterate 5
    simp only [List.length_cons, List.length_nil] at enough
    omega
  have first : perform c₁ (.createNew own) s = (.ok s.count, (s.settle c₁.settled).create own) := by
    rcases perform_createNew s c₁ own with ⟨error, bound, _⟩ | run
    · exact absurd free (bound (fine c₁ (by simp)))
    · exact run
  obtain ⟨s₁, made⟩ : ∃ s₁, s₁ = (s.settle c₁.settled).create own := ⟨_, rfl⟩
  obtain ⟨s₂, second, names₂⟩ : ∃ s₂, perform c₂ (.writeAll s.count bytes) s₁ = (.ok (), s₂) ∧
      s₂.entries = s₁.entries := by
    rcases perform_writeAll s₁ c₂ s.count bytes with ⟨error, _, refused, _⟩ | run
    · rw [fine c₂ (by simp)] at refused
      cases refused
    · exact ⟨_, run, rfl⟩
  obtain ⟨s₃, third, names₃⟩ : ∃ s₃, perform c₃ (.syncAll s.count) s₂ = (.ok (), s₃) ∧ s₃.entries = s₂.entries := by
    rcases perform_syncAll s₂ c₃ s.count with ⟨error, refused, _⟩ | run
    · rw [fine c₃ (by simp)] at refused
      cases refused
    · exact ⟨_, run, rfl⟩
  have held : s₃.entries own = some s.count := by
    rw [names₃, names₂, made]
    exact Function.update_self ..
  have taken : s₃.entries final ≠ some s.count := by
    rw [names₃, names₂, made]
    intro entry
    simp only [create, Function.update_of_ne apart] at entry
    exact absurd (s.entries_lt final _ entry) (Nat.lt_irrefl _)
  obtain ⟨s₄, fourth⟩ : ∃ s₄, perform c₄ (.rename own final) s₃ = (.ok (), s₄) := by
    rcases perform_rename s₃ c₄ held taken with ⟨error, refused, _⟩ | run
    · rw [fine c₄ (by simp)] at refused
      cases refused
    · exact ⟨_, run⟩
  obtain ⟨settled, last, all⟩ := perform_syncDirectory s₄ c₅
  refine ⟨s₄.settle settled, ?_, ?_⟩
  · simp only [FileProgram.replace, FileProgram.writeNew, Program.ask_bind, Program.call_bind, Program.runFor, first,
      ← made, second, third, fourth, last, Program.orError, Program.done_ok_bind]
    rfl
  · rw [all (fine c₅ (by simp))]
    rfl

end Disk

end Kybernetes
