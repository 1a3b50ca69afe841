import Kybernetes.Base.Codec
import Kybernetes.Base.Program

namespace Kybernetes

/-- What a file holds, and whether the disk has all of it. -/
structure File where
  bytes : Bytes
  synced : Bool
deriving DecidableEq, Repr

/-- A directory: its names as the programs see them and as the disk has them, and the files. -/
structure Disk (ν : Type) where
  entries : ν → Option Nat
  kept : ν → Option Nat
  files : Nat → File
  count : Nat
  entries_lt : ∀ name file, entries name = some file → file < count
  kept_lt : ∀ name file, kept name = some file → file < count

inductive OpenError
  | notFound
  | other (message : String)

/-- The calls on files. A file that is open goes by its number. -/
inductive FileCall (ν : Type)
  | pathExists (name : ν)
  | createDirectory
  | createNew (name : ν)
  | writeAll (file : Nat) (bytes : Bytes)
  | syncAll (file : Nat)
  | rename (name new : ν)
  | hardLink (name new : ν)
  | removeFile (name : ν)
  | openFile (name : ν)
  | readToEnd (file : Nat)
  | syncDirectory

abbrev FileCall.Answer {ν : Type} : FileCall ν → Type
  | pathExists _ => Bool
  | createDirectory => Except String Unit
  | createNew _ => Except String Nat
  | writeAll _ _ => Except String Unit
  | syncAll _ => Except String Unit
  | rename _ _ => Except String Unit
  | hardLink _ _ => Except String Unit
  | removeFile _ => Except String Unit
  | openFile _ => Except OpenError Nat
  | readToEnd _ => Except String Bytes
  | syncDirectory => Except String Unit

abbrev FileProgram (ν α : Type) : Type :=
  Program (FileCall ν) FileCall.Answer α

/-- What a call meets: a refusal by the system, how much of a write is done in spite of it, and the
names that the system has brought to the disk since the last call. -/
structure FileChance (ν : Type) where
  refusal : Option String
  written : Nat
  settled : ν → Bool

/-- What an outage does: the names that still come to the disk, and what is left of the files that are not
there as a whole. -/
structure Damage (ν : Type) where
  settled : ν → Bool
  garbage : Nat → Bytes

namespace Disk

variable {ν : Type} [DecidableEq ν]

def settledEntry (disk : Disk ν) (settled : ν → Bool) (name : ν) : Option Nat :=
  if settled name then disk.entries name else disk.kept name

/-- Some of the names come to the disk. -/
def settle (disk : Disk ν) (settled : ν → Bool) : Disk ν where
  entries := disk.entries
  kept := disk.settledEntry settled
  files := disk.files
  count := disk.count
  entries_lt := disk.entries_lt
  kept_lt name file held := by
    unfold settledEntry at held
    split at held
    · exact disk.entries_lt name file held
    · exact disk.kept_lt name file held

/-- A name stands for what another one stands for, or for nothing. -/
def rebind (disk : Disk ν) (name : ν) (source : Option ν) : Disk ν where
  entries := Function.update disk.entries name (source.bind disk.entries)
  kept := disk.kept
  files := disk.files
  count := disk.count
  entries_lt other file held := by
    by_cases same : other = name
    · rw [same, Function.update_self, Option.bind_eq_some_iff] at held
      obtain ⟨from', _, entry⟩ := held
      exact disk.entries_lt from' file entry
    · rw [Function.update_of_ne same] at held
      exact disk.entries_lt other file held
  kept_lt := disk.kept_lt

/-- A new empty file under the name. -/
def create (disk : Disk ν) (name : ν) : Disk ν where
  entries := Function.update disk.entries name (some disk.count)
  kept := disk.kept
  files := Function.update disk.files disk.count { bytes := [], synced := false }
  count := disk.count + 1
  entries_lt other file held := by
    by_cases same : other = name
    · rw [same, Function.update_self, Option.some.injEq] at held
      omega
    · rw [Function.update_of_ne same] at held
      exact Nat.lt_succ_of_lt (disk.entries_lt other file held)
  kept_lt other file held := Nat.lt_succ_of_lt (disk.kept_lt other file held)

def store (disk : Disk ν) (file : Nat) (content : File) : Disk ν :=
  { disk with files := Function.update disk.files file content }

/-- What is read under a name. -/
def read (disk : Disk ν) (name : ν) : Option Bytes :=
  (disk.entries name).map fun file => (disk.files file).bytes

/-- What the disk has under a name. -/
def readKept (disk : Disk ν) (name : ν) : Option Bytes :=
  (disk.kept name).map fun file => (disk.files file).bytes

/-- What a call answers and does once the system has settled some names. -/
def carryOut (refusal : Option String) (written : Nat) (disk : Disk ν) :
    (call : FileCall ν) → call.Answer × Disk ν
  | .pathExists name => (refusal.isNone && (disk.entries name).isSome, disk)
  | .createDirectory =>
    match refusal with
    | some error => (.error error, disk)
    | none => (.ok (), disk)
  | .createNew name =>
    match refusal with
    | some error => (.error error, disk)
    | none =>
      if disk.entries name = none then (.ok disk.count, disk.create name)
      else (.error "File exists (os error 17)", disk)
  | .writeAll file bytes =>
    let before := (disk.files file).bytes
    match refusal with
    | some error => (.error error, disk.store file { bytes := before ++ bytes.take written, synced := false })
    | none => (.ok (), disk.store file { bytes := before ++ bytes, synced := false })
  | .syncAll file =>
    match refusal with
    | some error => (.error error, disk)
    | none => (.ok (), disk.store file { bytes := (disk.files file).bytes, synced := true })
  | .rename name new =>
    match refusal with
    | some error => (.error error, disk)
    | none =>
      if disk.entries name = none then (.error "No such file or directory (os error 2)", disk)
      else if disk.entries name = disk.entries new then (.ok (), disk)
      else (.ok (), (disk.rebind new (some name)).rebind name none)
  | .hardLink name new =>
    match refusal with
    | some error => (.error error, disk)
    | none =>
      if disk.entries name = none then (.error "No such file or directory (os error 2)", disk)
      else if disk.entries new = none then (.ok (), disk.rebind new (some name))
      else (.error "File exists (os error 17)", disk)
  | .removeFile name =>
    match refusal with
    | some error => (.error error, disk)
    | none =>
      if disk.entries name = none then (.error "No such file or directory (os error 2)", disk)
      else (.ok (), disk.rebind name none)
  | .openFile name =>
    match refusal with
    | some error => (.error (.other error), disk)
    | none =>
      match disk.entries name with
      | none => (.error .notFound, disk)
      | some file => (.ok file, disk)
  | .readToEnd file =>
    match refusal with
    | some error => (.error error, disk)
    | none => (.ok (disk.files file).bytes, disk)
  | .syncDirectory =>
    match refusal with
    | some error => (.error error, disk)
    | none => (.ok (), disk.settle fun _ => true)

def perform (chance : FileChance ν) (call : FileCall ν) (disk : Disk ν) : call.Answer × Disk ν :=
  (disk.settle chance.settled).carryOut chance.refusal chance.written call

/-- The power fails: what is not on the disk is lost. -/
def fail (damage : Damage ν) (disk : Disk ν) : Disk ν where
  entries := disk.settledEntry damage.settled
  kept := disk.settledEntry damage.settled
  files file :=
    if (disk.files file).synced then disk.files file else { bytes := damage.garbage file, synced := false }
  count := disk.count
  entries_lt := (disk.settle damage.settled).kept_lt
  kept_lt := (disk.settle damage.settled).kept_lt

/-! ### What a program that keeps to its own name leaves alone -/

/-- No other name has the file, nor will it have it on the disk. -/
structure Private (disk : Disk ν) (name : ν) (file : Nat) : Prop where
  lt : file < disk.count
  entries : ∀ other, other ≠ name → disk.entries other ≠ some file
  kept : ∀ other, other ≠ name → disk.kept other ≠ some file

/-- A name stands for what it stood for, and the files that only it has are as they were. -/
structure Spares (name : ν) (s t : Disk ν) : Prop where
  entry : t.entries name = s.entries name
  kept : t.kept name = s.kept name ∨ t.kept name = s.entries name
  files : ∀ file, s.Private name file → t.Private name file ∧ t.files file = s.files file

/-- Files are only added, and what the disk has of them stays. -/
structure Extends (s t : Disk ν) : Prop where
  count : s.count ≤ t.count
  files : ∀ file, file < s.count → (s.files file).synced = true → t.files file = s.files file

variable {s t u : Disk ν} {name own : ν} {file : Nat}

omit [DecidableEq ν] in
theorem Spares.refl (name : ν) (s : Disk ν) : Spares name s s :=
  ⟨rfl, Or.inl rfl, fun _ held => ⟨held, rfl⟩⟩

omit [DecidableEq ν] in
theorem Spares.trans (first : Spares name s t) (rest : Spares name t u) : Spares name s u := by
  refine ⟨rest.entry.trans first.entry, ?_, fun file held => ?_⟩
  · rcases rest.kept with same | settled
    · rw [same]
      exact first.kept
    · exact Or.inr (settled.trans first.entry)
  · obtain ⟨still, same⟩ := first.files file held
    obtain ⟨again, same'⟩ := rest.files file still
    exact ⟨again, same'.trans same⟩

omit [DecidableEq ν] in
theorem Extends.refl (s : Disk ν) : Extends s s :=
  ⟨Nat.le_refl _, fun _ _ _ => rfl⟩

omit [DecidableEq ν] in
theorem Extends.trans (first : Extends s t) (rest : Extends t u) : Extends s u := by
  refine ⟨first.count.trans rest.count, fun file below synced => ?_⟩
  have same := first.files file below synced
  exact (rest.files file (below.trans_le first.count) (by rw [same]; exact synced)).trans same

omit [DecidableEq ν] in
theorem settle_kept (s : Disk ν) (settled : ν → Bool) (name : ν) :
    (s.settle settled).kept name = s.kept name ∨ (s.settle settled).kept name = s.entries name := by
  simp only [settle, settledEntry]
  split
  · exact Or.inr rfl
  · exact Or.inl rfl

omit [DecidableEq ν] in
theorem Private.settle (held : s.Private name file) (settled : ν → Bool) : (s.settle settled).Private name file := by
  refine ⟨held.lt, held.entries, fun other distinct => ?_⟩
  rcases settle_kept s settled other with same | same
  · rw [same]
    exact held.kept other distinct
  · rw [same]
    exact held.entries other distinct

omit [DecidableEq ν] in
theorem settle_spares (s : Disk ν) (settled : ν → Bool) (name : ν) : Spares name s (s.settle settled) :=
  ⟨rfl, settle_kept s settled name, fun _ held => ⟨held.settle settled, rfl⟩⟩

omit [DecidableEq ν] in
theorem settle_extends (s : Disk ν) (settled : ν → Bool) : Extends s (s.settle settled) :=
  ⟨Nat.le_refl _, fun _ _ _ => rfl⟩

theorem rebind_private {target : ν} {source : Option ν} (held : s.Private name file)
    (elsewhere : ∀ from', source = some from' → target = name ∨ from' ≠ name) :
    (s.rebind target source).Private name file := by
  refine ⟨held.lt, fun other distinct entry => ?_, held.kept⟩
  by_cases same : other = target
  · simp only [rebind, same, Function.update_self, Option.bind_eq_some_iff] at entry
    obtain ⟨from', is, entry⟩ := entry
    rcases elsewhere from' is with here | apart
    · exact distinct (same.trans here)
    · exact held.entries from' apart entry
  · simp only [rebind, Function.update_of_ne same] at entry
    exact held.entries other distinct entry

/-- A name that is neither bound anew nor bound to another one is spared. -/
theorem rebind_spares {target : ν} {source : Option ν} (apart : target ≠ name) (other : source ≠ some name) :
    Spares name s (s.rebind target source) := by
  refine ⟨Function.update_of_ne apart.symm .., Or.inl rfl, fun file held => ⟨?_, rfl⟩⟩
  refine rebind_private held fun from' is => Or.inr ?_
  rintro rfl
  exact other is

theorem rebind_entry (s : Disk ν) (name : ν) (source : Option ν) :
    (s.rebind name source).entries name = source.bind s.entries :=
  Function.update_self ..

theorem rebind_extends (s : Disk ν) (target : ν) (source : Option ν) : Extends s (s.rebind target source) :=
  ⟨Nat.le_refl _, fun _ _ _ => rfl⟩

theorem create_spares (apart : own ≠ name) : Spares name s (s.create own) := by
  refine ⟨Function.update_of_ne apart.symm .., Or.inl rfl, fun file held => ⟨⟨?_, ?_, held.kept⟩, ?_⟩⟩
  · exact Nat.lt_succ_of_lt held.lt
  · intro other distinct entry
    by_cases same : other = own
    · simp only [create, same, Function.update_self, Option.some.injEq] at entry
      exact absurd held.lt (by omega)
    · simp only [create, Function.update_of_ne same] at entry
      exact held.entries other distinct entry
  · exact Function.update_of_ne (Nat.ne_of_lt held.lt) ..

theorem create_extends (s : Disk ν) (own : ν) : Extends s (s.create own) :=
  ⟨Nat.le_succ _, fun _ below _ => Function.update_of_ne (Nat.ne_of_lt below) ..⟩

/-- The new file belongs to its name alone. -/
theorem create_private (s : Disk ν) (own : ν) : (s.create own).Private own s.count := by
  refine ⟨Nat.lt_succ_self _, fun other distinct entry => ?_, fun other _ entry => ?_⟩
  · simp only [create, Function.update_of_ne distinct] at entry
    exact absurd (s.entries_lt other _ entry) (Nat.lt_irrefl _)
  · exact absurd (s.kept_lt other _ entry) (Nat.lt_irrefl _)

omit [DecidableEq ν] in
/-- A write to the file of another name is no matter. -/
theorem store_spares (apart : own ≠ name) (entry : s.entries own = some file) (content : File) :
    Spares name s (s.store file content) := by
  refine ⟨rfl, Or.inl rfl, fun other held => ⟨⟨held.lt, held.entries, held.kept⟩, ?_⟩⟩
  refine Function.update_of_ne ?_ ..
  rintro rfl
  exact held.entries own apart entry

omit [DecidableEq ν] in
theorem store_extends (unsynced : (s.files file).synced = false) (content : File) :
    Extends s (s.store file content) := by
  refine ⟨Nat.le_refl _, fun other _ synced => Function.update_of_ne ?_ ..⟩
  rintro rfl
  rw [unsynced] at synced
  cases synced

omit [DecidableEq ν] in
theorem Private.store {other : Nat} (held : s.Private name file) (content : File) :
    (s.store other content).Private name file :=
  ⟨held.lt, held.entries, held.kept⟩

/-! ### What stands under a name is whole -/

/-- What stands under a name, now or after an outage, is on the disk as a whole and is allowed there. -/
structure Whole (allowed : Set (Option Bytes)) (name : ν) (disk : Disk ν) : Prop where
  entry : ∀ file, disk.entries name = some file → (disk.files file).synced = true
  kept : ∀ file, disk.kept name = some file → (disk.files file).synced = true
  read : disk.read name ∈ allowed
  readKept : disk.readKept name ∈ allowed

variable {allowed : Set (Option Bytes)}

omit [DecidableEq ν] in
theorem Whole.mono {more : Set (Option Bytes)} (whole : Whole allowed name s) (wider : allowed ⊆ more) :
    Whole more name s :=
  ⟨whole.entry, whole.kept, wider whole.read, wider whole.readKept⟩

omit [DecidableEq ν] in
/-- A name that others spare stays whole. -/
theorem Whole.of_spares (whole : Whole allowed name s) (spares : Spares name s t) (longer : Extends s t) :
    Whole allowed name t ∧ t.read name = s.read name := by
  have entries : ∀ file, s.entries name = some file → t.files file = s.files file :=
    fun file held => longer.files file (s.entries_lt name file held) (whole.entry file held)
  have keeps : ∀ file, s.kept name = some file → t.files file = s.files file :=
    fun file held => longer.files file (s.kept_lt name file held) (whole.kept file held)
  have read : (s.entries name).map (fun file => (t.files file).bytes) = s.read name :=
    Option.map_congr fun file held => by rw [entries file held]
  have readKept : (s.kept name).map (fun file => (t.files file).bytes) = s.readKept name :=
    Option.map_congr fun file held => by rw [keeps file held]
  have same : t.read name = s.read name := by rw [Disk.read, spares.entry, read]
  refine ⟨⟨fun file held => ?_, fun file held => ?_, by rw [same]; exact whole.read, ?_⟩, same⟩
  · rw [spares.entry] at held
    rw [entries file held]
    exact whole.entry file held
  · rcases spares.kept with which | which
    · rw [which] at held
      rw [keeps file held]
      exact whole.kept file held
    · rw [which] at held
      rw [entries file held]
      exact whole.entry file held
  · rcases spares.kept with which | which
    · rw [Disk.readKept, which, readKept]
      exact whole.readKept
    · rw [Disk.readKept, which, read]
      exact whole.read

omit [DecidableEq ν] in
theorem Whole.settle (whole : Whole allowed name s) (settled : ν → Bool) : Whole allowed name (s.settle settled) :=
  (whole.of_spares (settle_spares s settled name) (settle_extends s settled)).1

/-- The name gets a file that is on the disk as a whole. -/
theorem Whole.rebind (whole : Whole allowed name s) {source : Option ν}
    (synced : ∀ file, source.bind s.entries = some file → (s.files file).synced = true)
    (permitted : (source.bind s.entries).map (fun file => (s.files file).bytes) ∈ allowed) :
    Whole allowed name (s.rebind name source) := by
  have entry := rebind_entry s name source
  refine ⟨fun file held => ?_, whole.kept, ?_, whole.readKept⟩
  · rw [entry] at held
    exact synced file held
  · rw [Disk.read, entry]
    exact permitted

omit [DecidableEq ν] in
/-- After an outage a name stands for what it stood for or for what the disk had. -/
theorem Whole.fail (whole : Whole allowed name s) (damage : Damage ν) : Whole allowed name (s.fail damage) := by
  have shown : ∀ file, (s.files file).synced = true → (s.fail damage).files file = s.files file :=
    fun file synced => if_pos synced
  have either : s.settledEntry damage.settled name = s.kept name ∨
      s.settledEntry damage.settled name = s.entries name := settle_kept s damage.settled name
  have synced : ∀ file, s.settledEntry damage.settled name = some file → (s.files file).synced = true := by
    intro file held
    rcases either with same | same
    · exact whole.kept file (same ▸ held)
    · exact whole.entry file (same ▸ held)
  have permitted : (s.settledEntry damage.settled name).map (fun file => ((s.fail damage).files file).bytes) ∈ allowed := by
    have same : (s.settledEntry damage.settled name).map (fun file => ((s.fail damage).files file).bytes) =
        (s.settledEntry damage.settled name).map fun file => (s.files file).bytes :=
      Option.map_congr fun file held => by rw [shown file (synced file held)]
    rw [same]
    rcases either with which | which
    · rw [which]
      exact whole.readKept
    · rw [which]
      exact whole.read
  have still : ∀ file, s.settledEntry damage.settled name = some file →
      ((s.fail damage).files file).synced = true := by
    intro file held
    rw [shown file (synced file held)]
    exact synced file held
  exact ⟨still, still, permitted, permitted⟩

end Disk

end Kybernetes
