import Kybernetes.KeystoreRuns
import Kybernetes.ProducerAgreement
import Mathlib.Logic.Function.Basic

namespace Kybernetes

/-- Every step on a file goes through, as far as the directory lets it. -/
structure KeystoreEnvironment.GoesThrough (env : KeystoreEnvironment) : Prop extends env.Reads where
  existence : ∀ i, env.existence i = .ok ()
  directoryCreation : env.directoryCreation = .ok ()
  creation : env.creation = .ok ()
  writing : env.writing = .ok ()
  synchronization : env.synchronization = .ok ()
  linking : env.linking = .ok ()

namespace ValidatorKeystore

/-- The temporary files of the two keystores have different names. -/
theorem tempPath_candidate_ne (env env' : KeystoreEnvironment) :
    tempPath (str ".validator-keystore") env' ≠ tempPath (str ".validator-candidate") env := by
  intro same
  have letter := congrArg (fun path : Text => path[11]?) same
  simp only [tempPath, List.append_assoc] at letter
  rw [List.getElem?_append_left (by decide), List.getElem?_append_left (by decide)] at letter
  exact absurd letter (by decide)

variable {env : KeystoreEnvironment} {directory : DataDirectory} {finalPath tempPrefix : Text} {serialized : Bytes}

theorem pathExists_free {answer : FileAnswer} {path : Text} {label : String} (answered : answer = .ok ())
    (free : directory.read path = none) : pathExists answer directory path label = .ok false := by
  simp only [pathExists, bind_eq_ok, FileAnswer.orError_eq_ok, answered, free, pure_eq_ok]
  exact ⟨(), trivial, rfl⟩

theorem storeWithoutOverwrite_ok (goes : env.GoesThrough) (dataDirectory : String)
    (distinct : finalPath ≠ tempPath tempPrefix env) (tempFree : directory.read (tempPath tempPrefix env) = none)
    (free : directory.read finalPath = none) :
    ∃ after, storeWithoutOverwrite env dataDirectory directory finalPath tempPrefix serialized = (.ok (), after) ∧
      ∀ name, name ≠ tempPath tempPrefix env →
        after.read name = if name = finalPath then some serialized else directory.read name := by
  rcases storeWithoutOverwrite_cases env dataDirectory directory serialized distinct with
    ⟨error, after, run, _⟩ | ⟨after, run, _, reads⟩
  · exfalso
    unfold storeWithoutOverwrite at run
    rw [goes.directoryCreation] at run
    dsimp only at run
    rcases writePrivateFile_cases env directory (tempPath tempPrefix env) serialized with
      ⟨error', created, written, _⟩ | ⟨created, written, _, contents⟩
    · obtain ⟨made, creates⟩ := @Directory.create_of_free _ _ _ _ _ ([] : Bytes) tempFree
      unfold writePrivateFile at written
      rw [goes.creation] at written
      dsimp only at written
      rw [creates, goes.writing, goes.synchronization] at written
      cases written
    · rw [written, goes.linking] at run
      have held : created.read (tempPath tempPrefix env) ≠ none := by
        rw [contents, if_pos rfl]
        exact Option.some_ne_none _
      have unnamed : created.read finalPath = none := by
        rw [contents, if_neg distinct, free]
      obtain ⟨linked, links⟩ := Directory.link_of_free held unnamed
      dsimp only at run
      rw [links] at run
      cases run
  · exact ⟨after, run, reads⟩

end ValidatorKeystore

section

variable [Crypto] [KeystoreCrates] {passwords : Set Text} {env : KeystoreEnvironment} {directory : DataDirectory}
  {password : Text} {serialized : Bytes}

namespace ValidatorCandidateKeystore

open ValidatorKeystore

/-- What `generate` puts into the candidate file. -/
def storedCandidate (wallet : Wallet) : StoredValidatorCandidate :=
  { format := validatorCandidateFormat, networkFamily := validatorCandidateNetworkFamily,
    validatorAddress := wallet.address, privateKeyHex := wallet.privateKeyHex }

omit [KeystoreCrates] in
theorem storedCandidate_length (key : FixedBytes 32) :
    (storedCandidate (Wallet.fromSigningKey key)).toVec.length = 248 := by
  have names : (Json.string (Json.ascii "format")).length = 8 ∧
      (Json.string (Json.ascii "network_family")).length = 16 ∧
      (Json.string (Json.ascii "validator_address")).length = 19 ∧
      (Json.string (Json.ascii "private_key_hex")).length = 17 := by
    decide +kernel
  have values : (Json.string validatorCandidateFormat).length = 35 ∧
      (Json.string validatorCandidateNetworkFamily).length = 12 := by
    decide +kernel
  have address : (Json.string (Wallet.fromSigningKey key).address).length = 66 :=
    Json.string_length_of_isFixedHex (Wallet.address_fixed _)
  have privateKey : (Json.string (Wallet.fromSigningKey key).privateKeyHex).length = 66 :=
    Json.string_length_of_isFixedHex (isFixedHex_hexEncode key)
  simp only [StoredValidatorCandidate.toVec, storedCandidate, Json.object_length, List.map_cons, List.map_nil,
    List.sum_cons, List.sum_nil, List.length_cons, List.length_nil, names, values, address, privateKey]
  omega

theorem openCandidate_sealed (laws : KeystoreLaws passwords) {key : FixedBytes 32}
    (sealed : encrypt env password (storedCandidate (Wallet.fromSigningKey key)).toVec validatorCandidateAad =
      .ok serialized) : openCandidate password serialized = .ok { wallet := Wallet.fromSigningKey key } := by
  simp only [openCandidate, decrypt_encrypt laws sealed, bind_eq_ok, okOr_eq_ok, laws.candidate, rejectIf_eq_ok,
    pure_eq_ok, Except.ok.injEq, Option.some.injEq, exists_eq_left', storedCandidate, ne_eq, not_true_eq_false,
    or_self, not_false_eq_true, exists_const, true_and]
  exact ⟨_, Wallet.fromPrivateKeyHex_privateKeyHex key, not_not.mpr rfl, rfl⟩

theorem generate_ok (goes : env.GoesThrough) (self : ValidatorCandidateKeystore)
    (tempFree : directory.read (tempPath (str ".validator-candidate") env) = none)
    (free : directory.read validatorCandidateFileName = none)
    (sealed : encrypt env password (storedCandidate (Wallet.fromSigningKey env.signingKey)).toVec
      validatorCandidateAad = .ok serialized) :
    ∃ after, self.generate env directory password =
        (.ok (Wallet.fromSigningKey env.signingKey).address, after) ∧
      ∀ name, name ≠ tempPath (str ".validator-candidate") env →
        after.read name = if name = validatorCandidateFileName then some serialized else directory.read name := by
  have prepared : sealCandidate env directory password =
      .ok ((Wallet.fromSigningKey env.signingKey).address, serialized) := by
    simp only [sealCandidate, pathExists_free (goes.existence 0) free, bind_eq_ok, rejectIf_eq_ok, pure_eq_ok]
    exact ⟨false, rfl, (), by simp, serialized, sealed, rfl⟩
  obtain ⟨after, stored, reads⟩ := @storeWithoutOverwrite_ok _ _ _ _ serialized goes self.dataDirectory
    (tempPath_ne (by decide) (by decide)) tempFree free
  refine ⟨after, ?_, reads⟩
  rw [generate, prepared]
  dsimp only
  rw [stored]

end ValidatorCandidateKeystore

open ValidatorKeystore ValidatorCandidateKeystore

/-- With every step going through, a candidate that opens is activated. -/
theorem ActivationCall.succeeds_of_goes {call : ActivationCall} (goes : call.env.GoesThrough) (dataDirectory : String)
    {candidate : ValidatorCandidate} {content : Bytes}
    (held : directory.read validatorCandidateFileName = some content) (nonempty : content ≠ [])
    (fits : content.length ≤ maxValidatorKeystoreBytes)
    (opened : openCandidate call.password content = .ok candidate)
    (free : directory.read validatorKeystoreFileName = none)
    (tempFree : directory.read (tempPath (str ".validator-keystore") call.env) = none)
    (allowed : call.consensus.isValidatorAllowed candidate.address = true)
    (sealed : encrypt call.env call.password
      (storedKey call.genesisFingerprint candidate.wallet.privateKeyHex candidate.address).toVec
      validatorKeystoreAad = .ok serialized) : call.Succeeds dataDirectory directory := by
  have loaded : load call.env directory call.password = .ok (some candidate) := by
    rw [load, readEncryptedFile_fits goes.toReads held nonempty fits]
    change (openCandidate call.password content >>= fun candidate => pure (some candidate)) = _
    rw [opened]
    rfl
  have found : findCandidate call.env directory call.password = .ok candidate := by
    simp only [findCandidate, pathExists_free (goes.existence 0) free, loaded, bind_eq_ok, rejectIf_eq_ok, okOr_eq_ok]
    exact ⟨false, rfl, (), by simp, some candidate, rfl, rfl⟩
  have read : ValidatorIdentity.fromPrivateKey candidate.wallet.privateKeyHex call.consensus =
      .ok { wallet := candidate.wallet } := by
    refine ValidatorIdentity.fromPrivateKey_eq_ok.mpr ⟨?_, allowed⟩
    rw [openCandidate_wallet opened]
    exact Wallet.fromPrivateKeyHex_privateKeyHex _
  have prepared : sealKey call.env directory call.password candidate.wallet.privateKeyHex call.consensus
      call.genesisFingerprint = .ok (candidate.address, serialized) :=
    sealKey_eq_ok.mpr ⟨_, read, goes.existence 1, free, sealed, rfl⟩
  obtain ⟨after, stored, _⟩ := @storeWithoutOverwrite_ok _ _ _ _ serialized goes dataDirectory
    (tempPath_ne (by decide) (by decide)) tempFree free
  have provisioned : ValidatorKeystore.provision { dataDirectory } call.env directory call.password
      candidate.wallet.privateKeyHex call.consensus call.genesisFingerprint = (.ok candidate.address, after) := by
    rw [provision, prepared]
    dsimp only
    rw [stored]
  rw [Succeeds, perform, activate, found]
  dsimp only
  rw [provisioned]
  exact ⟨_, rfl⟩

/-- In an empty directory a key is generated and activated when every step goes through. -/
theorem KeystoreCall.generated_key_activates (laws : KeystoreLaws passwords) (dataDirectory : String)
    {call : ActivationCall} (goes : env.GoesThrough) (callGoes : call.env.GoesThrough)
    (used : call.password ∈ passwords)
    (allowed : call.consensus.isValidatorAllowed (Wallet.fromSigningKey env.signingKey).address = true)
    (seals : ∀ env plaintext aad, ∃ serialized, encrypt env call.password plaintext aad = .ok serialized) :
    let directory := run dataDirectory Directory.empty [.generate env call.password]
    ∃ content, directory.read validatorCandidateFileName = some content ∧
      HoldsKey passwords content env.signingKey ∧ call.Succeeds dataDirectory directory := by
  intro directory
  obtain ⟨content, sealed⟩ := seals env (storedCandidate (Wallet.fromSigningKey env.signingKey)).toVec
    validatorCandidateAad
  obtain ⟨after, generated, reads⟩ := generate_ok goes { dataDirectory } (Directory.read_empty _)
    (Directory.read_empty _) sealed
  have directory_eq : directory = after := congrArg Prod.snd generated
  have opened := openCandidate_sealed laws sealed
  have length := encrypt_length laws sealed
  rw [storedCandidate_length] at length
  have held : after.read validatorCandidateFileName = some content := by
    rw [reads _ (tempPath_ne (by decide) (by decide)), if_pos rfl]
  have free : after.read validatorKeystoreFileName = none := by
    rw [reads _ (tempPath_ne (by decide) (by decide)), if_neg (by decide)]
    rfl
  have tempFree : after.read (tempPath (str ".validator-keystore") call.env) = none := by
    rw [reads _ (tempPath_candidate_ne _ _), if_neg (Ne.symm (tempPath_ne (by decide) (by decide)))]
    rfl
  obtain ⟨serialized, sealedKey⟩ := seals call.env (storedKey call.genesisFingerprint
    (Wallet.fromSigningKey env.signingKey).privateKeyHex (Wallet.fromSigningKey env.signingKey).address).toVec
    validatorKeystoreAad
  rw [directory_eq]
  refine ⟨content, held, ⟨call.password, used, _, opened, rfl⟩, ?_⟩
  refine ActivationCall.succeeds_of_goes callGoes dataDirectory held ?_ ?_ opened free tempFree allowed sealedKey
  · rintro rfl
    rw [List.length_nil] at length
    omega
  · rw [length]
    decide

end

namespace Fixture

def keystorePassword : Text := str "correct horse"

/-- The sixteen bytes behind a ciphertext name the key and whether the data belongs to a candidate. -/
def tag (key : FixedBytes 32) (aad : Bytes) : Bytes :=
  key.val.take 15 ++ [if aad = validatorCandidateAad then 1 else 0]

theorem tag_length (key : FixedBytes 32) (aad : Bytes) : (tag key aad).length = 16 := by
  rw [tag, List.length_append, List.length_take, key.property]
  rfl

/-- Crates that hide nothing, but notice another password and other associated data. -/
noncomputable scoped instance keystoreCrates : KeystoreCrates where
  hashPasswordInto password _ := .ok ⟨(password ++ List.replicate 32 0).take 32, by simp⟩
  encrypt key _ aad plaintext := some (plaintext ++ tag key aad)
  decrypt key _ aad ciphertext :=
    let body := ciphertext.take (ciphertext.length - 16)
    if ciphertext = body ++ tag key aad then some body else none
  envelopeFromSlice := Function.partialInv EncryptedValidatorKeystore.toVecPretty
  keyFromSlice := Function.partialInv StoredValidatorKey.toVec
  candidateFromSlice := Function.partialInv StoredValidatorCandidate.toVec

theorem keystoreLaws : KeystoreLaws {keystorePassword} where
  envelope := Function.partialInv_left EncryptedValidatorKeystore.toVecPretty_injective
  key := Function.partialInv_left StoredValidatorKey.toVec_injective
  candidate := Function.partialInv_left StoredValidatorCandidate.toVec_injective
  decrypts := by
    intro key nonce aad plaintext ciphertext sealed
    cases sealed
    have body : (plaintext ++ tag key aad).take ((plaintext ++ tag key aad).length - 16) = plaintext := by
      rw [List.length_append, tag_length, Nat.add_sub_cancel, List.take_left']
      rfl
    simp only [KeystoreCrates.decrypt, body, if_true]
  exact := by
    rintro password rfl password' rfl salt key key' nonce ciphertext plaintext plaintext' aad domain aad' domain'
      hashed hashed' opened opened'
    cases hashed.symm.trans hashed'
    have ending : ∀ aad plaintext, KeystoreCrates.decrypt key nonce aad ciphertext = some plaintext →
        ciphertext = ciphertext.take (ciphertext.length - 16) ++ tag key aad := by
      intro aad plaintext opened
      by_contra other
      exact absurd ((if_neg other).symm.trans opened) (by simp)
    have flags := List.append_cancel_left ((ending aad _ opened).symm.trans (ending aad' _ opened'))
    have flag := List.singleton_inj.mp (List.append_cancel_left flags)
    have distinct : validatorKeystoreAad ≠ validatorCandidateAad := by decide
    simp only [List.mem_cons, List.not_mem_nil, or_false] at domain domain'
    refine ⟨rfl, ?_⟩
    rcases domain with rfl | rfl <;> rcases domain' with rfl | rfl
    · rfl
    · rw [if_neg distinct, if_pos rfl] at flag
      cases flag
    · rw [if_pos rfl, if_neg distinct] at flag
      cases flag
    · rfl
  tag := by
    intro key nonce aad plaintext ciphertext sealed
    cases sealed
    rw [List.length_append, tag_length]

def keystoreEnvironment : KeystoreEnvironment where
  signingKey := validatorSigningKey
  salt := fixedOfNat 16 1
  nonce := fixedOfNat 12 2
  tempSuffix := fixedOfNat 32 3
  existence _ := .ok ()
  opening := .ok ()
  metadata := .ok ()
  reading := .ok ()
  directoryCreation := .ok ()
  creation := .ok ()
  writing := .ok ()
  synchronization := .ok ()
  linking := .ok ()
  tempRemoval := .ok ()
  candidateRemoval := .ok ()

theorem keystoreEnvironment_goes : keystoreEnvironment.GoesThrough where
  opening := rfl
  metadata := rfl
  reading := rfl
  existence _ := rfl
  directoryCreation := rfl
  creation := rfl
  writing := rfl
  synchronization := rfl
  linking := rfl

def activation (genesisFingerprint : Text) : ActivationCall where
  env := keystoreEnvironment
  password := keystorePassword
  consensus := consensus
  genesisFingerprint := genesisFingerprint

/-- A key is generated in an empty directory and activated. -/
def activationCalls (genesisFingerprint : Text) : List KeystoreCall :=
  [.generate keystoreEnvironment keystorePassword, .activate (activation genesisFingerprint)]

theorem activation_succeeds (genesisFingerprint : Text) :
    let directory := KeystoreCall.run "data" Directory.empty [.generate keystoreEnvironment keystorePassword]
    ∃ content, directory.read validatorCandidateFileName = some content ∧
      KeystoreCall.HoldsKey {keystorePassword} content validatorSigningKey ∧
      (activation genesisFingerprint).Succeeds "data" directory := by
  have allowed : consensus.isValidatorAllowed (Wallet.fromSigningKey validatorSigningKey).address = true := by
    decide +kernel
  have long : 12 ≤ keystorePassword.length := by decide
  exact @KeystoreCall.generated_key_activates _ _ _ _ keystoreLaws "data" (activation genesisFingerprint)
    keystoreEnvironment_goes keystoreEnvironment_goes rfl allowed fun env plaintext aad =>
      ⟨_, ValidatorKeystore.encrypt_eq_ok.mpr ⟨_, _, ValidatorKeystore.deriveKey_eq_ok.mpr ⟨long, rfl⟩, rfl, rfl⟩⟩

end Fixture

open Fixture in
/-- The key of a validator under the fingerprint of its genesis. -/
theorem Fixture.activated_key_opens :
    let fingerprint := hexEncode genesisFingerprint.val
    ∃ identity, ValidatorKeystore.loadAuthorized keystoreEnvironment
        (KeystoreCall.run "data" Directory.empty (activationCalls fingerprint)) keystorePassword consensus
        fingerprint = .ok (some identity) ∧
      identity.address = hexEncode validatorAddress.val := by
  intro fingerprint
  have used : ∀ call ∈ activationCalls fingerprint, call.password ∈ ({keystorePassword} : Set Text) := by
    intro call member
    simp only [activationCalls, List.mem_cons, List.not_mem_nil, or_false] at member
    rcases member with rfl | rfl
    · rfl
    · rfl
  have fits : ∀ call, .activate call ∈ activationCalls fingerprint → call.FingerprintFits := by
    intro call member
    simp only [activationCalls, List.mem_cons, List.not_mem_nil, or_false, reduceCtorEq, false_or,
      KeystoreCall.activate.injEq] at member
    rw [member]
    change (Json.string fingerprint).length ≤ 523869
    decide +kernel
  have kept := (KeystoreCall.run_keeps_keys keystoreLaws "data" Directory.empty _ used).1 fits
  obtain ⟨content, held, holds, succeeds⟩ := activation_succeeds fingerprint
  obtain ⟨identity, loaded, address⟩ := kept.activated [_] _ [] content _ rfl held holds succeeds
    keystoreEnvironment keystoreEnvironment_goes.toReads
  refine ⟨identity, loaded, ?_⟩
  rw [address]
  decide +kernel

open Fixture in
/-- Under a fingerprint of 600000 letters the activation goes through and removes the candidate, but
the active keystore is too large to be read. -/
theorem Fixture.long_fingerprint_loses_key :
    let fingerprint : Text := List.replicate 600000 102
    let before := KeystoreCall.run "data" Directory.empty [.generate keystoreEnvironment keystorePassword]
    let after := KeystoreCall.run "data" Directory.empty (activationCalls fingerprint)
    (activation fingerprint).Succeeds "data" before ∧
      after.read validatorCandidateFileName = none ∧
      ValidatorKeystore.loadAuthorized keystoreEnvironment after keystorePassword consensus fingerprint =
        .error (.error "Validator keystore size is invalid") ∧
      ¬ KeystoreCall.KeysKept {keystorePassword} "data" Directory.empty (activationCalls fingerprint) := by
  intro fingerprint before after
  have large : ¬ (activation fingerprint).FingerprintFits := by
    have plain : ∀ byte ∈ fingerprint, Json.Plain byte := by
      intro byte member
      rw [List.eq_of_mem_replicate member]
      decide
    have length : (Json.string fingerprint).length = 600002 := by
      rw [Json.string_length_of_plain plain, List.length_replicate]
    intro fits
    change (Json.string fingerprint).length ≤ 523869 at fits
    omega
  obtain ⟨content, held, holds, succeeds⟩ := activation_succeeds fingerprint
  obtain ⟨candidate, _, serialized, activated⟩ := KeystoreCall.perform_activated succeeds
  refine ⟨succeeds, activated.removed rfl, ?_, fun kept => ?_⟩
  · exact activated.too_large keystoreLaws keystoreEnvironment_goes.toReads activated.stored large
  · exact large (@KeystoreCall.KeysKept.fits _ _ _ _ _ [_] [] _ kept keystoreLaws rfl succeeds)

end Kybernetes
