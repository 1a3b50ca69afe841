import Kybernetes.Base.TempFile
import Kybernetes.MessageCodec
import Kybernetes.Storage

namespace Kybernetes

open Json (Value)

def blockchainFileName : Text := str "blockchain.json"
def blockchainTempFileName : Text := str "blockchain.tmp"

/-- `serde_json::to_vec_pretty` of a chain. -/
def chainToVecPretty (chain : List Block) : Bytes :=
  (Value.array (chain.map Block.value)).print Json.pretty 0

theorem chainToVecPretty_injective : Function.Injective chainToVecPretty := by
  intro chain chain' same
  have values := Value.print_injective Json.pretty 0 same
  rw [Value.array.injEq] at values
  exact List.map_injective_iff.mpr Block.value_injective values

theorem chainToVecPretty_ne_nil (chain : List Block) : chainToVecPretty chain ≠ [] := by
  obtain ⟨byte, rest, front, _⟩ := (Value.array (chain.map Block.value)).print_eq_cons Json.pretty 0
  rw [chainToVecPretty, front]
  exact List.cons_ne_nil byte rest

/-- What is relied upon of `serde_json::from_slice`: it reads every chain back that was written. -/
def ReadsChains (fromSlice : Bytes → Except String (List Block)) : Prop :=
  ∀ chain, fromSlice (chainToVecPretty chain) = .ok chain

open Classical in
theorem exists_readsChains : ∃ fromSlice, ReadsChains fromSlice := by
  refine ⟨fun bytes => if written : ∃ chain, chainToVecPretty chain = bytes then .ok written.choose
    else .error "expected value at line 1 column 1", fun chain => ?_⟩
  have written : ∃ other, chainToVecPretty other = chainToVecPretty chain := ⟨chain, rfl⟩
  dsimp only
  rw [dif_pos written, chainToVecPretty_injective written.choose_spec]

/-! The steps that `Storage` takes on the files of its data directory. -/

namespace FileStorage

def uniqueBlockchainTempPath (suffix : FixedBytes 32) : Text :=
  str "." ++ blockchainTempFileName ++ str "-" ++ hexEncode suffix.val

def ensureDataDirectoryAt (dataDirectory : String) : FileProgram Text Unit := do
  let created ← Program.ask .createDirectory
  Program.orError created ("Data directory could not be created (" ++ dataDirectory ++ "): ")

/-- A directory that cannot be synced is only reported. -/
def saveBlockchainTo (dataDirectory : String) (suffix : FixedBytes 32) (chain : List Block) :
    FileProgram Text Unit := do
  let () ← Program.done (rejectIf (chain = []) "Empty blockchain cannot be saved")
  let () ← ensureDataDirectoryAt dataDirectory
  FileProgram.replace (uniqueBlockchainTempPath suffix) blockchainFileName (chainToVecPretty chain)
    "Temporary blockchain file could not be created: " "Blockchain could not be written to disk: "
    "Blockchain file could not be synchronized to disk: "
    "Blockchain file could not be moved into the active location: "

def loadBlockchainFrom (fromSlice : Bytes → Except String (List Block)) :
    FileProgram Text (Option (List Block)) := do
  let opened ← Program.ask (FileCall.openFile blockchainFileName)
  match opened with
  | .error .notFound => return none
  | .error (.other error) => .done (.error (.error ("Blockchain file could not be opened: " ++ error)))
  | .ok file =>
    let read ← Program.ask (.readToEnd file)
    let bytes ← Program.orError read "Blockchain file could not be read: "
    let () ← Program.done (rejectIf (bytes = []) "Blockchain file is empty")
    let chain ← Program.orError (fromSlice bytes) "Blockchain file contains invalid JSON: "
    let () ← Program.done (rejectIf (chain = []) "Stored blockchain is empty")
    return some chain

def deleteBlockchain : FileProgram Text Unit := do
  let existing ← Program.ask (.pathExists blockchainFileName)
  if existing then
    let removed ← Program.ask (.removeFile blockchainFileName)
    Program.orError removed "Blockchain file could not be deleted: "
  else return ()

/-- What the bytes of a chain file say. -/
def chainFileOf (fromSlice : Bytes → Except String (List Block)) : Option Bytes → ChainFile
  | none => .missing
  | some bytes =>
    if bytes = [] then .empty
    else
      match fromSlice bytes with
      | .error error => .invalidJson error
      | .ok chain => .blocks chain

/-- The chain file of a directory. -/
def chainFile (fromSlice : Bytes → Except String (List Block)) (disk : Disk Text) : ChainFile :=
  chainFileOf fromSlice (disk.read blockchainFileName)

/-- What happens to the chain file: a call of the program, which may be stopped at any of its steps, or
an outage. -/
inductive Event
  | save (dataDirectory : String) (suffix : FixedBytes 32) (chain : List Block) (chances : List (FileChance Text))
  | load (chances : List (FileChance Text))
  | delete (chances : List (FileChance Text))
  | outage (damage : Damage Text)

def step (fromSlice : Bytes → Except String (List Block)) (disk : Disk Text) : Event → Disk Text
  | .save dataDirectory suffix chain chances =>
    ((saveBlockchainTo dataDirectory suffix chain).runFor Disk.perform chances disk).2
  | .load chances => ((loadBlockchainFrom fromSlice).runFor Disk.perform chances disk).2
  | .delete chances => (deleteBlockchain.runFor Disk.perform chances disk).2
  | .outage damage => disk.fail damage

variable {fromSlice : Bytes → Except String (List Block)} {disk after : Disk Text} {allowed : Set (Option Bytes)}
  {dataDirectory : String} {suffix : FixedBytes 32} {chain : List Block} {chances : List (FileChance Text)}

theorem tempPath_ne (suffix : FixedBytes 32) : blockchainFileName ≠ uniqueBlockchainTempPath suffix := by
  intro same
  have hidden : (uniqueBlockchainTempPath suffix).head? = some 46 := rfl
  rw [← same] at hidden
  exact absurd hidden (by decide)

/-- Where there is a chain, a save ends with its JSON text in the file or, with an error, leaves the file. -/
theorem save_honours (nonempty : chain ≠ []) (permitted : some (chainToVecPretty chain) ∈ allowed)
    (whole : disk.Whole allowed blockchainFileName) :
    (saveBlockchainTo dataDirectory suffix chain).Honours Disk.perform (fun s t => t = s)
      (Disk.Replaces allowed blockchainFileName (chainToVecPretty chain))
      (fun result t => t.Whole allowed blockchainFileName ∧
        (result = .ok () → t.read blockchainFileName = some (chainToVecPretty chain)) ∧
        ∀ fault, result = .error fault → t.read blockchainFileName = disk.read blockchainFileName) disk := by
  have passes : rejectIf (chain = []) "Empty blockchain cannot be saved" = .ok () := rejectIf_eq_ok.mpr nonempty
  have apart := tempPath_ne suffix
  simp only [saveBlockchainTo, ensureDataDirectoryAt, passes, Program.done_ok_bind, Program.ask_bind,
    Program.call_bind]
  intro s same chance
  subst same
  have settled := Disk.settle_within (uniqueBlockchainTempPath suffix) s chance.settled
  obtain ⟨still, shown⟩ := whole.of_spares (settled.spares _ apart) settled.longer
  rcases Disk.perform_createDirectory s chance with ⟨error, _, run⟩ | run
  · rw [run]
    exact ⟨settled.replaces apart, still, fun wrong => absurd wrong (by simp), fun _ _ => shown⟩
  · rw [run]
    exact ⟨settled.replaces apart, Disk.replace_honours apart permitted still shown _ _ _ _⟩

/-- What a save does, stopped or not. -/
theorem save_cases (permitted : chain ≠ [] → some (chainToVecPretty chain) ∈ allowed)
    (whole : disk.Whole allowed blockchainFileName) {rest : FileProgram Text Unit}
    (run : (saveBlockchainTo dataDirectory suffix chain).runFor Disk.perform chances disk = (rest, after)) :
    after.Whole allowed blockchainFileName ∧
    (after.read blockchainFileName = disk.read blockchainFileName ∨
      chain ≠ [] ∧ after.read blockchainFileName = some (chainToVecPretty chain)) ∧
    (rest = .done (.ok ()) → chain ≠ [] ∧ after.read blockchainFileName = some (chainToVecPretty chain)) ∧
    ∀ fault, rest = .done (.error fault) → after.read blockchainFileName = disk.read blockchainFileName := by
  by_cases empty : chain = []
  · have refused : saveBlockchainTo dataDirectory suffix chain =
        .done (.error (.error "Empty blockchain cannot be saved")) := by
      rw [saveBlockchainTo, empty]
      rfl
    rw [refused] at run
    cases run
    exact ⟨whole, Or.inl rfl, fun wrong => absurd wrong (by simp), fun _ _ => rfl⟩
  · obtain ⟨path, last⟩ := (save_honours empty (permitted empty) whole).runFor (fun _ => rfl) chances run
    obtain ⟨still, shown⟩ := Disk.Replaces.of_path path whole
    refine ⟨still, shown.imp_right fun new => ⟨empty, new⟩, fun ended => ?_, fun fault ended => ?_⟩
    · subst ended
      exact ⟨empty, last.2.1 rfl⟩
    · subst ended
      exact last.2.2 fault rfl

/-- A save none of whose calls is refused goes through, and the disk has the chain then. -/
theorem save_fine (nonempty : chain ≠ []) (whole : disk.Whole allowed blockchainFileName)
    (free : disk.entries (uniqueBlockchainTempPath suffix) = none) (enough : 6 ≤ chances.length)
    (fine : ∀ chance ∈ chances, chance.refusal = none) :
    (step fromSlice disk (.save dataDirectory suffix chain chances)).Whole {some (chainToVecPretty chain)}
      blockchainFileName := by
  have passes : rejectIf (chain = []) "Empty blockchain cannot be saved" = .ok () := rejectIf_eq_ok.mpr nonempty
  obtain ⟨first, others, rfl⟩ : ∃ first others, chances = first :: others := by
    cases chances with
    | nil => simp at enough
    | cons first others => exact ⟨first, others, rfl⟩
  have made : Disk.perform first .createDirectory disk = (.ok (), disk.settle first.settled) := by
    rcases Disk.perform_createDirectory disk first with ⟨error, refused, _⟩ | run
    · rw [fine first List.mem_cons_self] at refused
      cases refused
    · exact run
  have length : 5 ≤ others.length := by
    rw [List.length_cons] at enough
    omega
  obtain ⟨after, replaced, kept⟩ := Disk.replace_fine (s := disk.settle first.settled) (chainToVecPretty chain)
    (tempPath_ne suffix) free length
    (fun chance member => fine chance (List.mem_cons_of_mem _ member))
    "Temporary blockchain file could not be created: " "Blockchain could not be written to disk: "
    "Blockchain file could not be synchronized to disk: "
    "Blockchain file could not be moved into the active location: "
  have run : (saveBlockchainTo dataDirectory suffix chain).runFor Disk.perform (first :: others) disk =
      (.done (.ok ()), after) := by
    rw [← replaced]
    simp only [saveBlockchainTo, ensureDataDirectoryAt, passes, Program.done_ok_bind, Program.ask_bind,
      Program.call_bind, Program.runFor, made, Program.orError]
  obtain ⟨still, _, ended, _⟩ := save_cases (fun _ => Set.mem_union_right allowed (Set.mem_singleton _))
    (whole.mono Set.subset_union_left) run
  obtain ⟨_, shown⟩ := ended rfl
  have shownKept : after.readKept blockchainFileName = some (chainToVecPretty chain) := by
    rw [Disk.readKept, kept]
    exact shown
  rw [step, run]
  exact ⟨still.entry, still.kept, shown, shownKept⟩

/-- A load that the system refuses. -/
def Refused (result : Result (Option (List Block))) : Prop :=
  ∃ error, result = .error (.error ("Blockchain file could not be opened: " ++ error)) ∨
    result = .error (.error ("Blockchain file could not be read: " ++ error))

/-- What is made of the bytes once they are read. -/
theorem load_bytes (bytes : Bytes) (s : Disk Text) (chances : List (FileChance Text)) :
    ((do
      let () ← Program.done (rejectIf (bytes = []) "Blockchain file is empty")
      let chain ← Program.orError (fromSlice bytes) "Blockchain file contains invalid JSON: "
      let () ← Program.done (rejectIf (chain = []) "Stored blockchain is empty")
      return some chain : FileProgram Text (Option (List Block))).runFor Disk.perform chances s) =
      (.done (Storage.loadBlockchainFrom (chainFileOf fromSlice (some bytes))), s) := by
  by_cases empty : bytes = []
  · subst empty
    rfl
  · have passes : rejectIf (bytes = []) "Blockchain file is empty" = .ok () := rejectIf_eq_ok.mpr empty
    rw [passes, Program.done_ok_bind, chainFileOf, if_neg empty]
    cases decoded : fromSlice bytes with
    | error error => rfl
    | ok chain =>
      by_cases none : chain = []
      · subst none
        rfl
      · have passes : rejectIf (chain = []) "Stored blockchain is empty" = .ok () := rejectIf_eq_ok.mpr none
        simp only [Program.orError, Program.done_ok_bind, passes, Storage.loadBlockchainFrom, if_neg none]
        rfl

/-- A load changes nothing. If it is neither stopped nor refused, it gives what the bytes say. -/
theorem load_cases {rest : FileProgram Text (Option (List Block))}
    (run : (loadBlockchainFrom fromSlice).runFor Disk.perform chances disk = (rest, after)) :
    (disk.Whole allowed blockchainFileName → after.Whole allowed blockchainFileName) ∧
    after.read blockchainFileName = disk.read blockchainFileName ∧
    ((chances.length < 2 ∧ ∃ call next, rest = .call call next) ∨
      ((∃ chance ∈ chances, chance.refusal ≠ none) ∧ ∃ result, rest = .done result ∧ Refused result) ∨
      rest = .done (Storage.loadBlockchainFrom (chainFile fromSlice disk))) := by
  simp only [loadBlockchainFrom, Program.ask_bind] at run
  rcases chances with _ | ⟨first, chances⟩
  · cases run
    exact ⟨id, rfl, Or.inl ⟨by simp, _, _, rfl⟩⟩
  rw [Program.runFor] at run
  rcases Disk.perform_openFile disk first blockchainFileName with ⟨error, refused, opened⟩ | ⟨absent, opened⟩ |
    ⟨file, held, opened⟩
  · rw [opened] at run
    cases run
    exact ⟨fun whole => whole.settle _, rfl, Or.inr (Or.inl ⟨⟨first, List.mem_cons_self, by simp [refused]⟩, _, rfl,
      error, Or.inl rfl⟩)⟩
  · rw [opened] at run
    cases run
    refine ⟨fun whole => whole.settle _, rfl, Or.inr (Or.inr ?_)⟩
    rw [chainFile, Disk.read, absent]
    rfl
  · rw [opened] at run
    simp only at run
    rcases chances with _ | ⟨second, chances⟩
    · cases run
      exact ⟨fun whole => whole.settle _, rfl, Or.inl ⟨by simp, _, _, rfl⟩⟩
    rw [Program.runFor] at run
    rcases Disk.perform_readToEnd (disk.settle first.settled) second file with ⟨error, refused, answered⟩ | answered
    · rw [answered] at run
      cases run
      exact ⟨fun whole => (whole.settle _).settle _, rfl, Or.inr (Or.inl ⟨⟨second, by simp, by simp [refused]⟩, _, rfl,
        error, Or.inr rfl⟩)⟩
    · rw [answered] at run
      simp only [Program.orError_ok_bind] at run
      rw [load_bytes] at run
      cases run
      refine ⟨fun whole => (whole.settle _).settle _, rfl, Or.inr (Or.inr ?_)⟩
      rw [chainFile, Disk.read, held]
      rfl

theorem delete_cases (whole : disk.Whole allowed blockchainFileName) {rest : FileProgram Text Unit}
    (run : deleteBlockchain.runFor Disk.perform chances disk = (rest, after)) :
    after.Whole (insert none allowed) blockchainFileName ∧
      (after.read blockchainFileName = disk.read blockchainFileName ∨ after.read blockchainFileName = none) := by
  have wider : disk.Whole (insert none allowed) blockchainFileName := whole.mono (Set.subset_insert none allowed)
  simp only [deleteBlockchain, Program.ask_bind] at run
  rcases chances with _ | ⟨first, chances⟩
  · cases run
    exact ⟨wider, Or.inl rfl⟩
  rw [Program.runFor, Disk.perform_pathExists] at run
  split at run
  · rcases chances with _ | ⟨second, chances⟩
    · cases run
      exact ⟨wider.settle _, Or.inl rfl⟩
    · rw [Program.runFor, Program.runFor_orError] at run
      have same : after = (Disk.perform second (.removeFile blockchainFileName) (disk.settle first.settled)).2 :=
        (congrArg Prod.snd run).symm
      rcases Disk.perform_removeFile (disk.settle first.settled) second blockchainFileName with kept | removed
      · rw [same, kept]
        exact ⟨(wider.settle _).settle _, Or.inl rfl⟩
      · rw [same, removed]
        refine ⟨((wider.settle _).settle _).rebind (fun _ held => absurd held (by simp))
          (Set.mem_insert none allowed), Or.inr ?_⟩
        rw [Disk.read]
        simp only [Disk.rebind, Function.update_self, Option.bind_none, Option.map_none]
  · cases run
    exact ⟨wider.settle _, Or.inl rfl⟩

theorem chainFile_text (reads : ReadsChains fromSlice)
    (content : disk.read blockchainFileName = some (chainToVecPretty chain)) :
    chainFile fromSlice disk = .blocks chain := by
  rw [chainFile, content, chainFileOf, if_neg (chainToVecPretty_ne_nil chain), reads chain]

/-- Seen from outside, a save that goes on or is stopped writes the chain file at once or not at all. -/
theorem save_refines (reads : ReadsChains fromSlice) (whole : disk.Whole allowed blockchainFileName)
    {rest : FileProgram Text Unit}
    (run : (saveBlockchainTo dataDirectory suffix chain).runFor Disk.perform chances disk = (rest, after)) :
    ∃ answer : WriteAnswer,
      chainFile fromSlice after = (Storage.saveBlockchainTo answer (chainFile fromSlice disk) chain).2 ∧
      (rest = .done (.ok ()) → (Storage.saveBlockchainTo answer (chainFile fromSlice disk) chain).1 = .ok ()) ∧
      ∀ fault, rest = .done (.error fault) → chainFile fromSlice after = chainFile fromSlice disk := by
  have wider := whole.mono (Set.subset_union_left (t := {some (chainToVecPretty chain)}))
  obtain ⟨_, shown, ended, failed⟩ := save_cases (fun _ => Set.mem_union_right _ (Set.mem_singleton _)) wider run
  have unchanged : ∀ fault, rest = .done (.error fault) → chainFile fromSlice after = chainFile fromSlice disk := by
    intro fault is
    rw [chainFile, failed fault is, chainFile]
  by_cases written : chain ≠ [] ∧ after.read blockchainFileName = some (chainToVecPretty chain)
  · obtain ⟨nonempty, now⟩ := written
    refine ⟨.ok (), ?_, fun _ => ?_, unchanged⟩
    · rw [chainFile_text reads now, Storage.saveBlockchainTo, if_neg nonempty]
    · rw [Storage.saveBlockchainTo, if_neg nonempty]
  · have same : chainFile fromSlice after = chainFile fromSlice disk := by
      rw [chainFile, shown.resolve_right written, chainFile]
    refine ⟨.error "", ?_, fun all => absurd (ended all) written, unchanged⟩
    rw [same, Storage.saveBlockchainTo]
    split <;> rfl

/-! ### Runs -/

/-- What an event can put in the place of the chain file. -/
def Event.writes : Event → Set (Option Bytes)
  | .save _ _ chain _ => {content | chain ≠ [] ∧ content = some (chainToVecPretty chain)}
  | .delete _ => {none}
  | _ => ∅

def writtenBy (events : List Event) : Set (Option Bytes) :=
  {content | ∃ event ∈ events, content ∈ event.writes}

theorem step_whole (whole : disk.Whole allowed blockchainFileName) (event : Event) :
    (step fromSlice disk event).Whole (allowed ∪ event.writes) blockchainFileName := by
  have wider := whole.mono (Set.subset_union_left (t := event.writes))
  cases event with
  | save dataDirectory suffix chain chances =>
    exact (save_cases (fun nonempty => Or.inr ⟨nonempty, rfl⟩) wider rfl).1
  | load chances => exact (load_cases rfl).1 wider
  | delete chances =>
    refine (delete_cases whole rfl).1.mono ?_
    rintro content (rfl | old)
    · exact Or.inr rfl
    · exact Or.inl old
  | outage damage => exact wider.fail damage

/-- Whatever happens, the chain file is one that was there or was written as a whole. -/
theorem run_whole (whole : disk.Whole allowed blockchainFileName) (events : List Event) :
    (runFrom (step fromSlice) disk events).Whole (allowed ∪ writtenBy events) blockchainFileName := by
  induction events generalizing disk allowed with
  | nil => exact whole.mono Set.subset_union_left
  | cons event events ih =>
    refine (ih (step_whole whole event)).mono ?_
    rintro content ((old | first) | ⟨later, member, written⟩)
    · exact Or.inl old
    · exact Or.inr ⟨event, List.mem_cons_self, first⟩
    · exact Or.inr ⟨later, List.mem_cons_of_mem event member, written⟩

/-- The JSON texts of chains that are not empty. -/
def textsOf (chains : Set (List Block)) : Set (Option Bytes) :=
  {content | ∃ chain ∈ chains, chain ≠ [] ∧ content = some (chainToVecPretty chain)}

/-- A chain file that holds a chain gives it back to every load that is neither stopped nor refused. -/
theorem load_of_whole (reads : ReadsChains fromSlice) {chains : Set (List Block)}
    (whole : disk.Whole (insert none (textsOf chains)) blockchainFileName) :
    Storage.loadBlockchainFrom (chainFile fromSlice disk) = .ok none ∧ disk.read blockchainFileName = none ∨
      ∃ chain ∈ chains, Storage.loadBlockchainFrom (chainFile fromSlice disk) = .ok (some chain) := by
  rcases whole.read with missing | ⟨chain, member, nonempty, content⟩
  · left
    refine ⟨?_, missing⟩
    rw [chainFile, missing]
    rfl
  · refine Or.inr ⟨chain, member, ?_⟩
    rw [chainFile_text reads content, Storage.loadBlockchainFrom, if_neg nonempty]

/-- The chains that the saves among the events were called with. -/
def savedIn (events : List Event) : Set (List Block) :=
  {chain | ∃ dataDirectory suffix chances, .save dataDirectory suffix chain chances ∈ events}

theorem run_whole_texts {known : Set (List Block)}
    (whole : disk.Whole (insert none (textsOf known)) blockchainFileName) (events : List Event) :
    (runFrom (step fromSlice) disk events).Whole (insert none (textsOf (known ∪ savedIn events)))
      blockchainFileName := by
  refine (run_whole whole events).mono ?_
  rintro content ((missing | ⟨chain, member, text⟩) | ⟨event, member, written⟩)
  · exact Or.inl missing
  · exact Or.inr ⟨chain, Or.inl member, text⟩
  · cases event with
    | save dataDirectory suffix chain chances =>
      exact Or.inr ⟨chain, Or.inr ⟨dataDirectory, suffix, chances, member⟩, written.1, written.2⟩
    | delete chances => exact Or.inl written
    | load chances => exact absurd written (Set.notMem_empty content)
    | outage damage => exact absurd written (Set.notMem_empty content)

/-- Without a deletion, a file that is there stays there. -/
theorem run_present (whole : disk.Whole allowed blockchainFileName) (present : none ∉ allowed) {events : List Event}
    (undeleted : ∀ chances, .delete chances ∉ events) :
    (runFrom (step fromSlice) disk events).read blockchainFileName ≠ none := by
  intro missing
  have shown := (@run_whole fromSlice _ _ whole events).read
  rw [missing] at shown
  rcases shown with old | ⟨event, member, written⟩
  · exact present old
  · cases event with
    | save => cases written.2
    | delete chances => exact undeleted chances member
    | load => exact written
    | outage => exact written

/-- Whatever saves, loads, deletions, crashes and outages there were, a load that is not refused gives a chain
that was there at the start or that one of the saves was called with, or none. It never finds a file that was
written in part. -/
theorem loads_are_whole (reads : ReadsChains fromSlice) {known : Set (List Block)}
    (whole : disk.Whole (insert none (textsOf known)) blockchainFileName) (events : List Event)
    {result : Result (Option (List Block))}
    (run : (loadBlockchainFrom fromSlice).runFor Disk.perform chances (runFrom (step fromSlice) disk events) =
      (.done result, after)) :
    Refused result ∨ result = .ok none ∨
      ∃ stored, result = .ok (some stored) ∧ (stored ∈ known ∨ stored ∈ savedIn events) := by
  have later := @run_whole_texts fromSlice _ _ whole events
  rcases (@load_cases fromSlice _ _ Set.univ _ _ run).2.2 with ⟨_, call, next, wrong⟩ | ⟨_, refused, ended, is⟩ | ended
  · cases wrong
  · cases ended
    exact Or.inl is
  · rw [Program.done.injEq] at ended
    rw [ended]
    rcases load_of_whole reads later with ⟨missing, _⟩ | ⟨stored, member, found⟩
    · exact Or.inr (Or.inl missing)
    · exact Or.inr (Or.inr ⟨stored, found, member⟩)

/-- A chain that was saved without a refusal is not lost: after whatever comes later, crashes and outages
included, but for a deletion, a load gives that chain or one that was saved later. -/
theorem saved_chain_is_kept (reads : ReadsChains fromSlice) (whole : disk.Whole allowed blockchainFileName)
    (nonempty : chain ≠ []) (free : disk.entries (uniqueBlockchainTempPath suffix) = none)
    (enough : 6 ≤ chances.length) (fine : ∀ chance ∈ chances, chance.refusal = none) (events : List Event)
    (undeleted : ∀ chances, .delete chances ∉ events) {loading : List (FileChance Text)}
    (enough' : 2 ≤ loading.length) (fine' : ∀ chance ∈ loading, chance.refusal = none) :
    ∃ stored, (stored = chain ∨ stored ∈ savedIn events) ∧
      ((loadBlockchainFrom fromSlice).runFor Disk.perform loading
        (runFrom (step fromSlice) disk (.save dataDirectory suffix chain chances :: events))).1 =
        .done (.ok (some stored)) := by
  have saved := @save_fine fromSlice _ _ dataDirectory _ _ _ nonempty whole free enough fine
  have present := @run_present fromSlice _ _ saved (by simp) _ undeleted
  have texts : {some (chainToVecPretty chain)} ⊆ insert none (textsOf {chain}) := by
    rintro content rfl
    exact Or.inr ⟨chain, rfl, nonempty, rfl⟩
  have later := @run_whole_texts fromSlice _ _ (saved.mono texts) events
  obtain ⟨final, ended⟩ : ∃ final, final = runFrom (step fromSlice) disk
      (.save dataDirectory suffix chain chances :: events) := ⟨_, rfl⟩
  change (runFrom (step fromSlice) disk (.save dataDirectory suffix chain chances :: events)).read _ ≠ none at present
  change (runFrom (step fromSlice) disk (.save dataDirectory suffix chain chances :: events)).Whole _ _ at later
  rw [← ended] at present later ⊢
  rcases (@load_cases fromSlice final _ Set.univ loading _ rfl).2.2 with ⟨few, _⟩ | ⟨⟨chance, member, refused⟩, _⟩ | run
  · omega
  · exact absurd (fine' chance member) refused
  · rcases load_of_whole reads later with ⟨_, missing⟩ | ⟨stored, member, found⟩
    · exact absurd missing present
    · refine ⟨stored, member, ?_⟩
      rw [run, found]

/-- To the node the event is a step of the store that it counts on: a save writes the chain file as a whole or not
at all and answers accordingly, a load changes nothing and gives what the file says unless the system refuses it, a
deletion takes the file away or leaves it. An outage leaves no file or brings back one of the known chains. -/
def Event.RefinesStorage (fromSlice : Bytes → Except String (List Block)) (known : Set (List Block))
    (disk : Disk Text) : Event → Prop
  | .save dataDirectory suffix chain chances => ∀ rest after,
    (saveBlockchainTo dataDirectory suffix chain).runFor Disk.perform chances disk = (rest, after) →
      ∃ answer : WriteAnswer,
        chainFile fromSlice after = (Storage.saveBlockchainTo answer (chainFile fromSlice disk) chain).2 ∧
        (rest = .done (.ok ()) → (Storage.saveBlockchainTo answer (chainFile fromSlice disk) chain).1 = .ok ()) ∧
        ∀ fault, rest = .done (.error fault) → chainFile fromSlice after = chainFile fromSlice disk
  | .load chances => ∀ rest after,
    (loadBlockchainFrom fromSlice).runFor Disk.perform chances disk = (rest, after) →
      chainFile fromSlice after = chainFile fromSlice disk ∧
        ∀ result, rest = .done result →
          Refused result ∨ result = Storage.loadBlockchainFrom (chainFile fromSlice disk)
  | .delete chances => ∀ rest after, deleteBlockchain.runFor Disk.perform chances disk = (rest, after) →
      chainFile fromSlice after = chainFile fromSlice disk ∨ chainFile fromSlice after = .missing
  | .outage damage => chainFile fromSlice (disk.fail damage) = .missing ∨
      ∃ chain ∈ known, chainFile fromSlice (disk.fail damage) = .blocks chain

/-- After every run the next event is a step of this store: a node that works on the files of a disk, is stopped at
any call and meets outages has the chain file that the steps of a node assume. -/
theorem storage_refines (reads : ReadsChains fromSlice) {known : Set (List Block)}
    (whole : disk.Whole (insert none (textsOf known)) blockchainFileName) (earlier : List Event) (event : Event) :
    event.RefinesStorage fromSlice (known ∪ savedIn earlier) (runFrom (step fromSlice) disk earlier) := by
  have now := @run_whole_texts fromSlice _ _ whole earlier
  cases event with
  | save dataDirectory suffix chain chances => exact fun rest after run => save_refines reads now run
  | load chances =>
    intro rest after run
    obtain ⟨_, same, ended⟩ := @load_cases fromSlice _ _ Set.univ _ _ run
    refine ⟨by rw [chainFile, same, chainFile], fun result is => ?_⟩
    rw [is] at ended
    rcases ended with ⟨_, call, next, wrong⟩ | ⟨_, other, same, refused⟩ | same
    · cases wrong
    · cases same
      exact Or.inl refused
    · cases same
      exact Or.inr rfl
  | delete chances =>
    intro rest after run
    refine (delete_cases now run).2.imp (fun same => ?_) fun gone => ?_
    · rw [chainFile, same, chainFile]
    · rw [chainFile, gone]
      rfl
  | outage damage =>
    rcases (now.fail damage).read with missing | ⟨chain, member, _, content⟩
    · left
      rw [chainFile, missing]
      rfl
    · exact Or.inr ⟨chain, member, chainFile_text reads content⟩

end FileStorage

namespace Fixture

open FileStorage

def emptyDisk : Disk Text where
  entries _ := none
  kept _ := none
  files _ := { bytes := [], synced := false }
  count := 0
  entries_lt := nofun
  kept_lt := nofun

def fineChance : FileChance Text where
  refusal := none
  written := 0
  settled _ := false

def storedBlock : Block where
  index := 0
  timestamp := 1
  previousHash := str "0"
  hash := str "1"
  validator := str "GENESIS"
  validatorPublicKey := str "GENESIS"
  validatorSignature := none
  transactions := []

/-- The power fails, and a save of two blocks stops after its third call. -/
def interruptions : List Event :=
  [.outage { settled := fun _ => false, garbage := fun _ => [] },
    .save "data" ⟨List.replicate 32 1, rfl⟩ [storedBlock, storedBlock] (List.replicate 3 fineChance)]

theorem emptyDisk_whole (name : Text) : emptyDisk.Whole {none} name :=
  ⟨nofun, nofun, rfl, rfl⟩

theorem emptyDisk_texts : emptyDisk.Whole (insert none (textsOf ∅)) blockchainFileName :=
  (emptyDisk_whole _).mono (Set.singleton_subset_iff.mpr (Or.inl rfl))

theorem fine_of_replicate (n : Nat) : ∀ chance ∈ List.replicate n fineChance, chance.refusal = none := by
  intro chance member
  rw [List.eq_of_mem_replicate member]
  rfl

end Fixture

open FileStorage in
open Fixture in
/-- The saved block is there after the interruptions. -/
theorem Fixture.block_is_kept : ∃ fromSlice, ReadsChains fromSlice ∧
    ∃ stored, (stored = [storedBlock] ∨ stored ∈ savedIn interruptions) ∧
      ((loadBlockchainFrom fromSlice).runFor Disk.perform (List.replicate 2 fineChance)
        (runFrom (step fromSlice) emptyDisk (.save "data" ⟨List.replicate 32 0, rfl⟩ [storedBlock]
          (List.replicate 6 fineChance) :: interruptions))).1 = .done (.ok (some stored)) := by
  obtain ⟨fromSlice, reads⟩ := exists_readsChains
  refine ⟨fromSlice, reads, saved_chain_is_kept reads (emptyDisk_whole _) (by simp) rfl (by simp)
    (fine_of_replicate 6) interruptions ?_ (by simp) (fine_of_replicate 2)⟩
  intro chances member
  simp [interruptions] at member

open FileStorage in
open Fixture in
/-- A load after a save that was completed, and the interruptions, of which the second leaves its save undone. -/
theorem Fixture.load_is_whole :
    let events := .save "data" ⟨List.replicate 32 0, rfl⟩ [storedBlock] (List.replicate 6 fineChance) :: interruptions
    ∃ fromSlice after, ReadsChains fromSlice ∧
      (loadBlockchainFrom fromSlice).runFor Disk.perform (List.replicate 2 fineChance)
        (runFrom (step fromSlice) emptyDisk events) = (.done (.ok (some [storedBlock])), after) ∧
      [storedBlock] ∈ savedIn events := by
  intro events
  obtain ⟨fromSlice, reads⟩ := exists_readsChains
  have content : (runFrom (step fun _ => .error "") emptyDisk events).read blockchainFileName =
      some (chainToVecPretty [storedBlock]) := by
    decide +kernel
  have stored := @chainFile_text fromSlice _ _ reads content
  obtain ⟨final, ended⟩ : ∃ final, final = runFrom (step fromSlice) emptyDisk events := ⟨_, rfl⟩
  change chainFile fromSlice (runFrom (step fromSlice) emptyDisk events) = _ at stored
  rw [← ended] at stored
  obtain ⟨after, run⟩ : ∃ after, (loadBlockchainFrom fromSlice).runFor Disk.perform (List.replicate 2 fineChance)
      final = (.done (.ok (some [storedBlock])), after) := by
    rcases (@load_cases fromSlice final _ Set.univ (List.replicate 2 fineChance) _ rfl).2.2 with ⟨few, _⟩ |
      ⟨⟨chance, member, refused⟩, _⟩ | done
    · exact absurd few (by simp)
    · exact absurd (fine_of_replicate 2 chance member) refused
    · rw [stored] at done
      exact ⟨_, Prod.ext done rfl⟩
  rw [ended] at run
  refine ⟨fromSlice, _, reads, run, ?_⟩
  rcases loads_are_whole reads emptyDisk_texts events run with ⟨error, refused | refused⟩ | missing |
    ⟨chain, same, none | saved⟩
  · cases refused
  · cases refused
  · cases missing
  · exact absurd none (Set.notMem_empty chain)
  · cases same
    exact saved

open FileStorage in
open Fixture in
/-- A save after the interruptions. -/
theorem Fixture.next_save_refines : ∃ fromSlice, ReadsChains fromSlice ∧
    (Event.save "data" ⟨List.replicate 32 0, rfl⟩ [storedBlock] (List.replicate 6 fineChance)).RefinesStorage
      fromSlice (∅ ∪ savedIn interruptions) (runFrom (step fromSlice) emptyDisk interruptions) := by
  obtain ⟨fromSlice, reads⟩ := exists_readsChains
  exact ⟨fromSlice, reads, storage_refines reads emptyDisk_texts interruptions _⟩

end Kybernetes
