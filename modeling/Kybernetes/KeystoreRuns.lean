import Kybernetes.KeystoreFiles

namespace Kybernetes

/-- What a name holds stays as it is. -/
def Directory.Keeps {ν β : Type} (before : Directory ν β) (name : ν) (after : Directory ν β) : Prop :=
  ∀ content, before.read name = some content → after.read name = some content

theorem Directory.keeps_of_eq {ν β : Type} {before after : Directory ν β} {name : ν}
    (same : after.read name = before.read name) : before.Keeps name after :=
  fun _ held => same.trans held

section

variable [Crypto] [KeystoreCrates]

/-! ### The calls that change files -/

namespace ValidatorKeystore

theorem provision_cases (self : ValidatorKeystore) (env : KeystoreEnvironment) (directory : DataDirectory)
    (password privateKeyHex : Text) (consensus : Consensus) (genesisFingerprint : Text) :
    (∃ fault after, self.provision env directory password privateKeyHex consensus genesisFingerprint =
        (.error fault, after) ∧
      after.read validatorKeystoreFileName = directory.read validatorKeystoreFileName ∧
      after.read validatorCandidateFileName = directory.read validatorCandidateFileName) ∨
    ∃ address serialized after, self.provision env directory password privateKeyHex consensus genesisFingerprint =
        (.ok address, after) ∧
      sealKey env directory password privateKeyHex consensus genesisFingerprint = .ok (address, serialized) ∧
      after.read validatorKeystoreFileName = some serialized ∧
      after.read validatorCandidateFileName = directory.read validatorCandidateFileName := by
  have active : validatorKeystoreFileName ≠ tempPath (str ".validator-keystore") env :=
    tempPath_ne (by decide) (by decide)
  have candidate : validatorCandidateFileName ≠ tempPath (str ".validator-keystore") env :=
    tempPath_ne (by decide) (by decide)
  unfold provision
  cases sealed : sealKey env directory password privateKeyHex consensus genesisFingerprint with
  | error fault => exact Or.inl ⟨fault, directory, rfl, rfl, rfl⟩
  | ok result =>
    obtain ⟨address, serialized⟩ := result
    dsimp only
    rcases storeWithoutOverwrite_cases env self.dataDirectory directory serialized active with
      ⟨error, after, stored, reads⟩ | ⟨after, stored, _, reads⟩
    · rw [stored]
      exact Or.inl ⟨_, after, rfl, reads _ active, reads _ candidate⟩
    · rw [stored]
      refine Or.inr ⟨address, serialized, after, rfl, rfl, ?_, ?_⟩
      · rw [reads _ active, if_pos rfl]
      · rw [reads _ candidate, if_neg (by decide)]

end ValidatorKeystore

namespace ValidatorCandidateKeystore

open ValidatorKeystore

theorem generate_keeps (self : ValidatorCandidateKeystore) (env : KeystoreEnvironment) (directory : DataDirectory)
    (password : Text) :
    directory.Keeps validatorKeystoreFileName (self.generate env directory password).2 ∧
      directory.Keeps validatorCandidateFileName (self.generate env directory password).2 := by
  have active : validatorKeystoreFileName ≠ tempPath (str ".validator-candidate") env :=
    tempPath_ne (by decide) (by decide)
  have candidate : validatorCandidateFileName ≠ tempPath (str ".validator-candidate") env :=
    tempPath_ne (by decide) (by decide)
  unfold generate
  cases sealCandidate env directory password with
  | error fault => exact ⟨Directory.keeps_of_eq rfl, Directory.keeps_of_eq rfl⟩
  | ok result =>
    obtain ⟨address, serialized⟩ := result
    dsimp only
    rcases storeWithoutOverwrite_cases env self.dataDirectory directory serialized candidate with
      ⟨error, after, stored, reads⟩ | ⟨after, stored, free, reads⟩
    · rw [stored]
      exact ⟨Directory.keeps_of_eq (reads _ active), Directory.keeps_of_eq (reads _ candidate)⟩
    · rw [stored]
      refine ⟨Directory.keeps_of_eq ?_, fun content held => ?_⟩
      · rw [reads _ active, if_neg (by decide)]
      · rw [free] at held
        cases held

theorem openCandidate_wallet {password content : Text} {candidate : ValidatorCandidate}
    (run : openCandidate password content = .ok candidate) :
    candidate.wallet = Wallet.fromSigningKey candidate.wallet.signingKey := by
  simp only [openCandidate, bind_eq_ok, rejectIf_eq_ok, pure_eq_ok, exists_const] at run
  obtain ⟨_, _, _, _, _, wallet, read, _, rfl⟩ := run
  obtain ⟨key, _, rfl⟩ := Wallet.fromPrivateKeyHex_eq_ok.mp read
  rfl

theorem findCandidate_ok {env : KeystoreEnvironment} {directory : DataDirectory} {password : Text}
    {candidate : ValidatorCandidate} (run : findCandidate env directory password = .ok candidate) :
    ∃ content, directory.read validatorCandidateFileName = some content ∧
      openCandidate password content = .ok candidate := by
  simp only [findCandidate, load, bind_eq_ok, okOr_eq_ok] at run
  obtain ⟨_, _, _, _, _, ⟨found, read, run⟩, rfl⟩ := run
  cases found with
  | none => cases run
  | some content =>
    simp only [bind_eq_ok, pure_eq_ok, Option.some.injEq] at run
    obtain ⟨_, opened, rfl⟩ := run
    exact ⟨content, readEncryptedFile_some read, opened⟩

end ValidatorCandidateKeystore

/-- The arguments of a call of `activate`. -/
structure ActivationCall where
  env : KeystoreEnvironment
  password : Text
  consensus : Consensus
  genesisFingerprint : Text

namespace ActivationCall

open ValidatorKeystore ValidatorCandidateKeystore

def perform (call : ActivationCall) (dataDirectory : String) (directory : DataDirectory) :
    Result ValidatorActivation × DataDirectory :=
  ValidatorCandidateKeystore.activate { dataDirectory } call.env directory call.password call.consensus
    call.genesisFingerprint

def Succeeds (call : ActivationCall) (dataDirectory : String) (directory : DataDirectory) : Prop :=
  ∃ activation, (call.perform dataDirectory directory).1 = .ok activation

/-- What a successful activation has found and what it has left. -/
structure Activated (call : ActivationCall) (before : DataDirectory) (candidate : ValidatorCandidate)
    (content serialized : Bytes) (after : DataDirectory) : Prop where
  found : before.read validatorCandidateFileName = some content
  opened : openCandidate call.password content = .ok candidate
  free : before.read validatorKeystoreFileName = none
  allowed : ValidatorIdentity.fromPrivateKey candidate.wallet.privateKeyHex call.consensus =
    .ok { wallet := candidate.wallet }
  sealed : encrypt call.env call.password
    (storedKey call.genesisFingerprint candidate.wallet.privateKeyHex candidate.wallet.address).toVec
    validatorKeystoreAad = .ok serialized
  stored : after.read validatorKeystoreFileName = some serialized
  removed : call.env.candidateRemoval = .ok () → after.read validatorCandidateFileName = none

theorem perform_cases (call : ActivationCall) (dataDirectory : String) (directory : DataDirectory) :
    (∃ fault after, call.perform dataDirectory directory = (.error fault, after) ∧
      after.read validatorKeystoreFileName = directory.read validatorKeystoreFileName ∧
      after.read validatorCandidateFileName = directory.read validatorCandidateFileName) ∨
    ∃ activation after candidate content serialized, call.perform dataDirectory directory = (.ok activation, after) ∧
      call.Activated directory candidate content serialized after := by
  unfold perform activate
  cases searched : findCandidate call.env directory call.password with
  | error fault => exact Or.inl ⟨fault, directory, rfl, rfl, rfl⟩
  | ok candidate =>
    obtain ⟨content, found, opened⟩ := findCandidate_ok searched
    dsimp only
    rcases provision_cases { dataDirectory } call.env directory call.password candidate.wallet.privateKeyHex
      call.consensus call.genesisFingerprint with ⟨fault, after, run, active, kept⟩ |
      ⟨address, serialized, after, run, sealed, stored, kept⟩
    · rw [run]
      exact Or.inl ⟨fault, after, rfl, active, kept⟩
    · rw [run]
      obtain ⟨identity, read, _, free, encrypted, rfl⟩ := sealKey_eq_ok.mp sealed
      have wallet : identity.wallet = candidate.wallet := by
        have same := (ValidatorIdentity.fromPrivateKey_eq_ok.mp read).1
        rw [openCandidate_wallet opened, Wallet.fromPrivateKeyHex_privateKeyHex, Except.ok.injEq] at same
        rw [← same]
        exact (openCandidate_wallet opened).symm
      have identity_eq : identity = { wallet := candidate.wallet } := by rw [← wallet]
      subst identity_eq
      have active : (removeFile call.env.candidateRemoval after validatorCandidateFileName).2.read
          validatorKeystoreFileName = some serialized := by
        rw [removeFile_read _ _ (by decide), stored]
      refine Or.inr ⟨_, _, candidate, content, serialized, rfl, found, opened, free, read, encrypted, active,
        fun removal => ?_⟩
      rw [removal]
      change (after.unlink validatorCandidateFileName).read validatorCandidateFileName = none
      rw [Directory.read_unlink, if_pos rfl]

/-- The active keystore that the fingerprint makes is not too large to be read again. -/
def FingerprintFits (call : ActivationCall) : Prop :=
  (Json.string call.genesisFingerprint).length ≤ 523869

variable {passwords : Set Text} {call : ActivationCall} {before after : DataDirectory}
  {candidate : ValidatorCandidate} {content serialized : Bytes}

theorem Activated.length_eq (activated : call.Activated before candidate content serialized after)
    (laws : KeystoreLaws passwords) :
    serialized.length = 838 + 2 * (Json.string call.genesisFingerprint).length := by
  have sealed := activated.sealed
  rw [openCandidate_wallet activated.opened] at sealed
  exact storedKey_length laws sealed

theorem Activated.too_large (activated : call.Activated before candidate content serialized after)
    (laws : KeystoreLaws passwords) {env : KeystoreEnvironment} (reads : env.Reads) {later : DataDirectory}
    (held : later.read validatorKeystoreFileName = some serialized) (large : ¬ call.FingerprintFits) :
    loadAuthorized env later call.password call.consensus call.genesisFingerprint =
      .error (.error "Validator keystore size is invalid") := by
  have length := activated.length_eq laws
  rw [FingerprintFits] at large
  have tooLarge : maxValidatorKeystoreBytes < serialized.length := by
    rw [length, maxValidatorKeystoreBytes]
    omega
  rw [loadAuthorized, readEncryptedFile_large reads held tooLarge]
  rfl

/-- What an activation has stored is read again exactly when the fingerprint fits. -/
theorem Activated.loads (activated : call.Activated before candidate content serialized after)
    (laws : KeystoreLaws passwords) {env : KeystoreEnvironment} (reads : env.Reads) {later : DataDirectory}
    (held : later.read validatorKeystoreFileName = some serialized) :
    (∃ identity, loadAuthorized env later call.password call.consensus call.genesisFingerprint = .ok (some identity) ∧
      identity.address = candidate.address) ↔ call.FingerprintFits := by
  constructor
  · rintro ⟨identity, loaded, _⟩
    by_contra large
    rw [activated.too_large laws reads held large] at loaded
    cases loaded
  · intro fits
    have length := activated.length_eq laws
    rw [FingerprintFits] at fits
    have nonempty : serialized ≠ [] := by
      rintro rfl
      rw [List.length_nil] at length
      omega
    have small : serialized.length ≤ maxValidatorKeystoreBytes := by
      rw [length, maxValidatorKeystoreBytes]
      omega
    refine ⟨{ wallet := candidate.wallet }, ?_, rfl⟩
    rw [loadAuthorized, readEncryptedFile_fits reads held nonempty small]
    change (openKey call.password call.consensus call.genesisFingerprint serialized >>= fun identity =>
      pure (some identity)) = _
    rw [openKey_sealed laws activated.allowed activated.sealed]
    rfl

end ActivationCall

/-! ### Sequences of calls -/

/-- A call on the keystores of one data directory. -/
inductive KeystoreCall
  | generate (env : KeystoreEnvironment) (password : Text)
  | load (env : KeystoreEnvironment) (password : Text)
  | activate (call : ActivationCall)
  | provision (env : KeystoreEnvironment) (password privateKeyHex : Text) (consensus : Consensus)
      (genesisFingerprint : Text)
  | loadAuthorized (env : KeystoreEnvironment) (password : Text) (consensus : Consensus) (genesisFingerprint : Text)

namespace KeystoreCall

def password : KeystoreCall → Text
  | .generate _ password => password
  | .load _ password => password
  | .activate call => call.password
  | .provision _ password _ _ _ => password
  | .loadAuthorized _ password _ _ => password

/-- The data directory after a call. The two loading calls only read. -/
def perform (dataDirectory : String) (directory : DataDirectory) : KeystoreCall → DataDirectory
  | .generate env password => (ValidatorCandidateKeystore.generate { dataDirectory } env directory password).2
  | .load _ _ => directory
  | .activate call => (call.perform dataDirectory directory).2
  | .provision env password privateKeyHex consensus genesisFingerprint =>
    (ValidatorKeystore.provision { dataDirectory } env directory password privateKeyHex consensus
      genesisFingerprint).2
  | .loadAuthorized _ _ _ _ => directory

def run (dataDirectory : String) (directory : DataDirectory) (calls : List KeystoreCall) : DataDirectory :=
  calls.foldl (perform dataDirectory) directory

variable {dataDirectory : String} {directory : DataDirectory}

theorem run_append (first second : List KeystoreCall) :
    run dataDirectory directory (first ++ second) = run dataDirectory (run dataDirectory directory first) second :=
  List.foldl_append

/-- No call changes an active keystore. -/
theorem perform_keeps_active (call : KeystoreCall) :
    directory.Keeps validatorKeystoreFileName (perform dataDirectory directory call) := by
  cases call with
  | generate env password => exact (ValidatorCandidateKeystore.generate_keeps _ env directory password).1
  | load | loadAuthorized => exact Directory.keeps_of_eq rfl
  | activate call =>
    intro content held
    rcases call.perform_cases dataDirectory directory with ⟨fault, after, run, active, _⟩ |
      ⟨activation, after, candidate, found, serialized, run, activated⟩
    · rw [perform, run]
      exact active.trans held
    · rw [activated.free] at held
      cases held
  | provision env password privateKeyHex consensus genesisFingerprint =>
    intro content held
    rcases ValidatorKeystore.provision_cases { dataDirectory } env directory password privateKeyHex consensus
      genesisFingerprint with ⟨fault, after, run, active, _⟩ | ⟨address, serialized, after, run, sealed, _⟩
    · rw [perform, run]
      exact active.trans held
    · obtain ⟨_, _, _, free, _⟩ := ValidatorKeystore.sealKey_eq_ok.mp sealed
      rw [free] at held
      cases held

/-- Only a successful activation touches a candidate. -/
theorem perform_keeps_candidate (call : KeystoreCall)
    (still : ∀ activation, call = .activate activation → ¬ activation.Succeeds dataDirectory directory) :
    directory.Keeps validatorCandidateFileName (perform dataDirectory directory call) := by
  cases call with
  | generate env password => exact (ValidatorCandidateKeystore.generate_keeps _ env directory password).2
  | load | loadAuthorized => exact Directory.keeps_of_eq rfl
  | activate call =>
    rcases call.perform_cases dataDirectory directory with ⟨fault, after, run, _, kept⟩ |
      ⟨activation, after, _, _, _, run, _⟩
    · rw [perform, run]
      exact Directory.keeps_of_eq kept
    · exact absurd ⟨activation, by rw [run]⟩ (still call rfl)
  | provision env password privateKeyHex consensus genesisFingerprint =>
    rcases ValidatorKeystore.provision_cases { dataDirectory } env directory password privateKeyHex consensus
      genesisFingerprint with ⟨fault, after, run, _, kept⟩ | ⟨address, serialized, after, run, _, _, kept⟩
    · rw [perform, run]
      exact Directory.keeps_of_eq kept
    · rw [perform, run]
      exact Directory.keeps_of_eq kept

theorem run_keeps_active (calls : List KeystoreCall) :
    directory.Keeps validatorKeystoreFileName (run dataDirectory directory calls) := by
  induction calls generalizing directory with
  | nil => exact Directory.keeps_of_eq rfl
  | cons call rest ih => exact fun content held => ih content (perform_keeps_active call content held)

/-- No activation in the calls goes through. -/
def NoneActivates (dataDirectory : String) (directory : DataDirectory) (calls : List KeystoreCall) : Prop :=
  ∀ earlier activation later, calls = earlier ++ .activate activation :: later →
    ¬ activation.Succeeds dataDirectory (run dataDirectory directory earlier)

theorem run_keeps_candidate {calls : List KeystoreCall} (still : NoneActivates dataDirectory directory calls) :
    directory.Keeps validatorCandidateFileName (run dataDirectory directory calls) := by
  induction calls generalizing directory with
  | nil => exact Directory.keeps_of_eq rfl
  | cons call rest ih =>
    have first := @perform_keeps_candidate _ _ dataDirectory directory call fun activation same =>
      still [] activation rest (by rw [same]; rfl)
    have behind : NoneActivates dataDirectory (perform dataDirectory directory call) rest :=
      fun earlier activation later split => still (call :: earlier) activation later (by rw [split]; rfl)
    exact fun content held => ih behind content (first content held)

/-- The content is a candidate file with the key, for one of the passwords. -/
def HoldsKey (passwords : Set Text) (content : Bytes) (key : FixedBytes 32) : Prop :=
  ∃ password ∈ passwords, ∃ candidate, ValidatorCandidateKeystore.openCandidate password content = .ok candidate ∧
    candidate.wallet.signingKey = key

/-- Keys are neither lost nor overwritten while the calls are made: an active keystore never changes,
a candidate file stays until an activation goes through, and from then on the active keystore opens
for what that activation was given, with the address of the key. -/
structure KeysKept (passwords : Set Text) (dataDirectory : String) (directory : DataDirectory)
    (calls : List KeystoreCall) : Prop where
  active : ∀ earlier later, calls = earlier ++ later →
    (run dataDirectory directory earlier).Keeps validatorKeystoreFileName (run dataDirectory directory calls)
  candidate : ∀ earlier later content key, calls = earlier ++ later →
    (run dataDirectory directory earlier).read validatorCandidateFileName = some content →
    HoldsKey passwords content key → NoneActivates dataDirectory (run dataDirectory directory earlier) later →
    (run dataDirectory directory calls).read validatorCandidateFileName = some content
  activated : ∀ earlier activation later content key, calls = earlier ++ .activate activation :: later →
    (run dataDirectory directory earlier).read validatorCandidateFileName = some content →
    HoldsKey passwords content key → activation.Succeeds dataDirectory (run dataDirectory directory earlier) →
    ∀ env : KeystoreEnvironment, env.Reads → ∃ identity,
      ValidatorKeystore.loadAuthorized env (run dataDirectory directory calls) activation.password
        activation.consensus activation.genesisFingerprint = .ok (some identity) ∧
      identity.address = (Wallet.fromSigningKey key).address

/-- Two passwords that open one candidate file are the same, so an activation of a file that holds a
key activates that key. -/
theorem HoldsKey.candidate_eq {passwords : Set Text} {password content : Text} {key : FixedBytes 32}
    {candidate : ValidatorCandidate} (holds : HoldsKey passwords content key) (laws : KeystoreLaws passwords)
    (used : password ∈ passwords)
    (opened : ValidatorCandidateKeystore.openCandidate password content = .ok candidate) :
    candidate.wallet = Wallet.fromSigningKey key := by
  obtain ⟨password', member, candidate', opened', rfl⟩ := holds
  have plaintext := opened
  have plaintext' := opened'
  simp only [ValidatorCandidateKeystore.openCandidate, bind_eq_ok] at plaintext plaintext'
  obtain ⟨_, decrypted, _⟩ := plaintext
  obtain ⟨_, decrypted', _⟩ := plaintext'
  have same := ValidatorKeystore.decrypt_password laws used member (by simp) decrypted decrypted'
  subst same
  cases opened.symm.trans opened'
  exact ValidatorCandidateKeystore.openCandidate_wallet opened

theorem perform_activated {activation : ActivationCall}
    (succeeds : activation.Succeeds dataDirectory directory) :
    ∃ candidate content serialized, activation.Activated directory candidate content serialized
      (perform dataDirectory directory (.activate activation)) := by
  obtain ⟨result, ok⟩ := succeeds
  rcases activation.perform_cases dataDirectory directory with ⟨fault, after, run, _⟩ |
    ⟨result', after, candidate, content, serialized, run, activated⟩
  · rw [run] at ok
    cases ok
  · refine ⟨candidate, content, serialized, ?_⟩
    rw [perform, run]
    exact activated

/-- Behind a successful activation the active keystore is the one it has stored. -/
theorem run_activated {earlier later : List KeystoreCall} {activation : ActivationCall}
    (succeeds : activation.Succeeds dataDirectory (run dataDirectory directory earlier)) :
    ∃ candidate content serialized after,
      activation.Activated (run dataDirectory directory earlier) candidate content serialized after ∧
      (run dataDirectory directory (earlier ++ .activate activation :: later)).read validatorKeystoreFileName =
        some serialized := by
  obtain ⟨candidate, content, serialized, activated⟩ := perform_activated succeeds
  refine ⟨candidate, content, serialized, _, activated, ?_⟩
  rw [run_append]
  exact run_keeps_active later serialized activated.stored

theorem KeysKept.fits {passwords : Set Text} {earlier later : List KeystoreCall} {activation : ActivationCall}
    (kept : KeysKept passwords dataDirectory directory (earlier ++ .activate activation :: later))
    (laws : KeystoreLaws passwords) (used : activation.password ∈ passwords)
    (succeeds : activation.Succeeds dataDirectory (run dataDirectory directory earlier)) :
    activation.FingerprintFits := by
  obtain ⟨candidate, content, serialized, after, activated, stored⟩ := @run_activated _ _ _ _ _ later _ succeeds
  have holds : HoldsKey passwords content candidate.wallet.signingKey :=
    ⟨activation.password, used, candidate, activated.opened, rfl⟩
  have reads : { activation.env with opening := .ok (), metadata := .ok (), reading := .ok () }.Reads :=
    ⟨rfl, rfl, rfl⟩
  obtain ⟨identity, loaded, address⟩ := kept.activated earlier activation later content _ rfl activated.found
    holds succeeds _ reads
  refine (activated.loads laws reads stored).mp ⟨identity, loaded, ?_⟩
  rw [address, ValidatorCandidate.address, ← ValidatorCandidateKeystore.openCandidate_wallet activated.opened]

/-- Validator keys are kept in every sequence of calls whose activations have a fingerprint that
fits. An activation that goes through with a longer one leaves an active keystore that is too large to
be read. -/
theorem run_keeps_keys {passwords : Set Text} (laws : KeystoreLaws passwords) (dataDirectory : String)
    (directory : DataDirectory) (calls : List KeystoreCall) (used : ∀ call ∈ calls, call.password ∈ passwords) :
    ((∀ activation, .activate activation ∈ calls → activation.FingerprintFits) →
      KeysKept passwords dataDirectory directory calls) ∧
    (KeysKept passwords dataDirectory directory calls → ∀ earlier activation later,
      calls = earlier ++ .activate activation :: later →
      activation.Succeeds dataDirectory (run dataDirectory directory earlier) → activation.FingerprintFits) := by
  constructor
  · intro fits
    refine ⟨?_, ?_, ?_⟩
    · rintro earlier later rfl
      rw [run_append]
      exact run_keeps_active later
    · rintro earlier later content key rfl held _ still
      rw [run_append]
      exact run_keeps_candidate still content held
    · rintro earlier activation later content key rfl held holds succeeds env reads
      have member : .activate activation ∈ earlier ++ .activate activation :: later :=
        List.mem_append_right _ (List.mem_cons_self ..)
      obtain ⟨candidate, found, serialized, after, activated, stored⟩ := run_activated succeeds
      obtain rfl : found = content := Option.some.inj (activated.found.symm.trans held)
      have wallet := holds.candidate_eq laws (used _ member) activated.opened
      obtain ⟨identity, loaded, address⟩ := (activated.loads laws reads stored).mpr (fits activation member)
      refine ⟨identity, loaded, ?_⟩
      rw [address, ValidatorCandidate.address, wallet]
  · rintro kept earlier activation later rfl succeeds
    have member : .activate activation ∈ earlier ++ .activate activation :: later :=
      List.mem_append_right _ (List.mem_cons_self ..)
    exact kept.fits laws (used _ member) succeeds

end KeystoreCall

end

end Kybernetes
