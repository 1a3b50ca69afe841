import Kybernetes.Keystore
import Kybernetes.MessageSizes

namespace Kybernetes

/-- What is assumed of the crates: `serde_json` reads what it has written; decryption gives back the
plaintext, and of the given passwords and the two domains it does so for one only; the tag has
sixteen bytes. -/
structure KeystoreLaws [KeystoreCrates] (passwords : Set Text) : Prop where
  envelope : ∀ envelope : EncryptedValidatorKeystore,
    KeystoreCrates.envelopeFromSlice envelope.toVecPretty = some envelope
  key : ∀ stored : StoredValidatorKey, KeystoreCrates.keyFromSlice stored.toVec = some stored
  candidate : ∀ stored : StoredValidatorCandidate, KeystoreCrates.candidateFromSlice stored.toVec = some stored
  decrypts : ∀ key nonce aad plaintext ciphertext,
    KeystoreCrates.encrypt key nonce aad plaintext = some ciphertext →
      KeystoreCrates.decrypt key nonce aad ciphertext = some plaintext
  exact : ∀ password ∈ passwords, ∀ password' ∈ passwords, ∀ salt key key' nonce ciphertext plaintext plaintext',
    ∀ aad ∈ [validatorKeystoreAad, validatorCandidateAad], ∀ aad' ∈ [validatorKeystoreAad, validatorCandidateAad],
      KeystoreCrates.hashPasswordInto password salt = .ok key →
      KeystoreCrates.hashPasswordInto password' salt = .ok key' →
      KeystoreCrates.decrypt key nonce aad ciphertext = some plaintext →
      KeystoreCrates.decrypt key' nonce aad' ciphertext = some plaintext' → password = password' ∧ aad = aad'
  tag : ∀ key nonce aad plaintext ciphertext,
    KeystoreCrates.encrypt key nonce aad plaintext = some ciphertext → ciphertext.length = plaintext.length + 16

/-! ### The files on the disk -/

section Files

variable {env : KeystoreEnvironment} {directory : DataDirectory} {path finalPath tempPrefix : Text}
  {contents serialized : Bytes}

theorem FileAnswer.orError_eq_ok {answer : FileAnswer} {context : String} {u : Unit} :
    answer.orError context = .ok u ↔ answer = .ok () := by
  cases answer <;> simp [orError]

/-- A temporary file never has the name of a keystore. -/
theorem tempPath_ne (hidden : tempPrefix.head? = some 46) (shown : path.head? ≠ some 46) :
    path ≠ ValidatorKeystore.tempPath tempPrefix env := by
  intro same
  cases tempPrefix with
  | nil => cases hidden
  | cons byte rest =>
    rw [same] at shown
    exact shown hidden

namespace ValidatorKeystore

theorem writePrivateFile_cases (env : KeystoreEnvironment) (directory : DataDirectory) (path : Text)
    (contents : Bytes) :
    (∃ error after, writePrivateFile env directory path contents = (.error (.error error), after) ∧
      ∀ name, name ≠ path → after.read name = directory.read name) ∨
    ∃ after, writePrivateFile env directory path contents = (.ok (), after) ∧
      directory.read path = none ∧
      ∀ name, after.read name = if name = path then some contents else directory.read name := by
  unfold writePrivateFile
  cases env.creation with
  | error error => exact Or.inl ⟨_, directory, rfl, fun _ _ => rfl⟩
  | ok _ =>
    dsimp only
    cases made : directory.create path [] with
    | none => exact Or.inl ⟨_, directory, rfl, fun _ _ => rfl⟩
    | some created =>
      obtain ⟨free, alone, reads⟩ := Directory.create_eq_some made
      have held : created.read path ≠ none := by
        rw [reads path, if_pos rfl]
        exact Option.some_ne_none _
      have written : ∀ bytes name, (created.write path bytes).read name =
          if name = path then some bytes else directory.read name := by
        intro bytes name
        rw [Directory.read_write alone held]
        by_cases same : name = path
        · rw [if_pos same, if_pos same]
        · rw [if_neg same, if_neg same, reads name, if_neg same]
      dsimp only
      cases env.writing with
      | error failure =>
        refine Or.inl ⟨_, _, rfl, fun name other => ?_⟩
        rw [written, if_neg other]
      | ok _ =>
        dsimp only
        cases env.synchronization with
        | error error =>
          refine Or.inl ⟨_, _, rfl, fun name other => ?_⟩
          rw [written, if_neg other]
        | ok _ => exact Or.inr ⟨_, rfl, free, written contents⟩

theorem removeFile_read (answer : FileAnswer) (directory : DataDirectory) {path name : Text} (other : name ≠ path) :
    (removeFile answer directory path).2.read name = directory.read name := by
  cases answer with
  | error error => rfl
  | ok _ =>
    change (directory.unlink path).read name = directory.read name
    rw [Directory.read_unlink, if_neg other]

/-- The file gets its name as a whole and only where there is none, or nothing but the temporary
file has changed. -/
theorem storeWithoutOverwrite_cases (env : KeystoreEnvironment) (dataDirectory : String) (directory : DataDirectory)
    (serialized : Bytes) (distinct : finalPath ≠ tempPath tempPrefix env) :
    (∃ error after, storeWithoutOverwrite env dataDirectory directory finalPath tempPrefix serialized =
        (.error (.error error), after) ∧
      ∀ name, name ≠ tempPath tempPrefix env → after.read name = directory.read name) ∨
    ∃ after, storeWithoutOverwrite env dataDirectory directory finalPath tempPrefix serialized = (.ok (), after) ∧
      directory.read finalPath = none ∧
      ∀ name, name ≠ tempPath tempPrefix env →
        after.read name = if name = finalPath then some serialized else directory.read name := by
  unfold storeWithoutOverwrite
  cases env.directoryCreation with
  | error error => exact Or.inl ⟨_, directory, rfl, fun _ _ => rfl⟩
  | ok _ =>
    dsimp only
    rcases writePrivateFile_cases env directory (tempPath tempPrefix env) serialized with
      ⟨error, after, written, reads⟩ | ⟨after, written, _, reads⟩
    · rw [written]
      refine Or.inl ⟨_, _, rfl, fun name other => ?_⟩
      rw [removeFile_read _ _ other, reads name other]
    · rw [written]
      dsimp only
      cases env.linking with
      | error error =>
        refine Or.inl ⟨_, _, rfl, fun name other => ?_⟩
        rw [removeFile_read _ _ other, reads name, if_neg other]
      | ok _ =>
        dsimp only
        cases linked : after.link (tempPath tempPrefix env) finalPath with
        | none =>
          refine Or.inl ⟨_, _, rfl, fun name other => ?_⟩
          rw [removeFile_read _ _ other, reads name, if_neg other]
        | some published =>
          obtain ⟨free, names⟩ := Directory.link_eq_some linked
          rw [reads finalPath, if_neg distinct] at free
          refine Or.inr ⟨_, rfl, free, fun name other => ?_⟩
          rw [removeFile_read _ _ other, names name, reads (tempPath tempPrefix env), if_pos rfl, reads name,
            if_neg other]

end ValidatorKeystore

end Files

/-! ### What is in the files -/

/-- What `encrypt` puts into the file around a ciphertext. -/
def EncryptedValidatorKeystore.sealing (env : KeystoreEnvironment) (ciphertext : Bytes) :
    EncryptedValidatorKeystore :=
  { version := 1, kdf := str "argon2id", kdfMemoryKib := argon2MemoryKib, kdfIterations := argon2Iterations,
    kdfParallelism := argon2Parallelism, cipher := str "chacha20poly1305", saltHex := hexEncode env.salt.val,
    nonceHex := hexEncode env.nonce.val, ciphertextHex := hexEncode ciphertext }

theorem Json.string_length_of_hexEncode (bytes : Bytes) :
    (Json.string (hexEncode bytes)).length = 2 * bytes.length + 2 := by
  rw [Json.string_length_of_plain fun byte member => Json.plain_of_isHexDigit byte (hexEncode_isHexDigit member),
    hexEncode_length]

theorem EncryptedValidatorKeystore.sealing_length (env : KeystoreEnvironment) (ciphertext : Bytes) :
    (sealing env ciphertext).toVecPretty.length = 262 + 2 * ciphertext.length := by
  have names : (Json.string (Json.ascii "version")).length = 9 ∧ (Json.string (Json.ascii "kdf")).length = 5 ∧
      (Json.string (Json.ascii "kdf_memory_kib")).length = 16 ∧
      (Json.string (Json.ascii "kdf_iterations")).length = 16 ∧
      (Json.string (Json.ascii "kdf_parallelism")).length = 17 ∧ (Json.string (Json.ascii "cipher")).length = 8 ∧
      (Json.string (Json.ascii "salt_hex")).length = 10 ∧ (Json.string (Json.ascii "nonce_hex")).length = 11 ∧
      (Json.string (Json.ascii "ciphertext_hex")).length = 16 := by
    decide +kernel
  have values : (decimal (1 : UInt32).toNat).length = 1 ∧ (Json.string (str "argon2id")).length = 10 ∧
      (decimal argon2MemoryKib.toNat).length = 5 ∧ (decimal argon2Iterations.toNat).length = 1 ∧
      (decimal argon2Parallelism.toNat).length = 1 ∧ (Json.string (str "chacha20poly1305")).length = 18 := by
    decide +kernel
  have salt := Json.string_length_of_hexEncode env.salt.val
  have nonce := Json.string_length_of_hexEncode env.nonce.val
  have rest := Json.string_length_of_hexEncode ciphertext
  rw [env.salt.property] at salt
  rw [env.nonce.property] at nonce
  simp only [toVecPretty, members, sealing, Json.prettyObject_length, List.map_cons, List.map_nil, List.sum_cons,
    List.sum_nil, List.length_cons, List.length_nil, names, Json.number, values, salt, nonce, rest]
  omega

/-- With a private key of 64 hex digits only the fingerprint has no fixed length. -/
theorem StoredValidatorKey.toVec_length {stored : StoredValidatorKey}
    (format : stored.format = validatorKeystoreFormat) (network : stored.networkId = Kybernetes.networkId)
    (address : isFixedHex stored.validatorAddress 64 = true)
    (key : isFixedHex stored.privateKeyHex 64 = true) :
    stored.toVec.length = 272 + (Json.string stored.genesisFingerprint).length := by
  have names : (Json.string (Json.ascii "format")).length = 8 ∧
      (Json.string (Json.ascii "network_id")).length = 12 ∧
      (Json.string (Json.ascii "genesis_fingerprint")).length = 21 ∧
      (Json.string (Json.ascii "validator_address")).length = 19 ∧
      (Json.string (Json.ascii "private_key_hex")).length = 17 := by
    decide +kernel
  have values : (Json.string validatorKeystoreFormat).length = 29 ∧
      (Json.string Kybernetes.networkId).length = 23 := by
    decide +kernel
  have addressLength := Json.string_length_of_isFixedHex address
  have keyLength := Json.string_length_of_isFixedHex key
  simp only [toVec, Json.object_length, List.map_cons, List.map_nil, List.sum_cons, List.sum_nil,
    List.length_cons, List.length_nil, names, format, network, values, addressLength, keyLength]
  omega

/-! What is written can be read back. -/

theorem EncryptedValidatorKeystore.toVecPretty_injective : Function.Injective toVecPretty := by
  have free : ∀ envelope : EncryptedValidatorKeystore, ∀ entry ∈ envelope.members, 10 ∉ entry.2 := by
    intro envelope entry member
    simp only [members, List.mem_cons, List.not_mem_nil, or_false] at member
    rcases member with rfl | rfl | rfl | rfl | rfl | rfl | rfl | rfl | rfl
    all_goals first | exact Json.newline_notMem_string _ | exact Json.newline_notMem_number _
  have number : ∀ n m : UInt32, Json.number n.toNat = Json.number m.toNat → n = m :=
    fun n m same => UInt32.toNat_inj.mp (decimal_inj same)
  intro first second same
  have written : first.members = second.members := Json.prettyObject_inj rfl (free first) (free second) same
  simp only [members, List.cons.injEq, Prod.mk.injEq, true_and, and_true] at written
  obtain ⟨version, kdf, memory, iterations, parallelism, cipher, salt, nonce, ciphertext⟩ := written
  cases first
  cases second
  rw [mk.injEq]
  exact ⟨number _ _ version, Json.string_inj kdf, number _ _ memory, number _ _ iterations, number _ _ parallelism,
    Json.string_inj cipher, Json.string_inj salt, Json.string_inj nonce, Json.string_inj ciphertext⟩

theorem StoredValidatorKey.toVec_injective : Function.Injective toVec := by
  intro first second same
  have names : ∀ stored : StoredValidatorKey, stored.toVec = Json.object (Json.textMembers
      ["format", "network_id", "genesis_fingerprint", "validator_address", "private_key_hex"]
      [stored.format, stored.networkId, stored.genesisFingerprint, stored.validatorAddress, stored.privateKeyHex]) :=
    fun _ => rfl
  rw [names, names] at same
  have texts := Json.object_texts_inj rfl rfl same
  cases first
  cases second
  simpa only [List.cons.injEq, and_true, mk.injEq] using texts

theorem StoredValidatorCandidate.toVec_injective : Function.Injective toVec := by
  intro first second same
  have names : ∀ stored : StoredValidatorCandidate, stored.toVec = Json.object (Json.textMembers
      ["format", "network_family", "validator_address", "private_key_hex"]
      [stored.format, stored.networkFamily, stored.validatorAddress, stored.privateKeyHex]) :=
    fun _ => rfl
  rw [names, names] at same
  have texts := Json.object_texts_inj rfl rfl same
  cases first
  cases second
  simpa only [List.cons.injEq, and_true, mk.injEq] using texts

section Crates

variable [KeystoreCrates] {passwords : Set Text} {env : KeystoreEnvironment} {password password' : Text}
  {plaintext plaintext' aad aad' serialized : Bytes}

namespace ValidatorKeystore

theorem deriveKey_eq_ok {salt : FixedBytes 16} {key : FixedBytes 32} :
    deriveKey password salt = .ok key ↔
      12 ≤ password.length ∧ KeystoreCrates.hashPasswordInto password salt = .ok key := by
  rw [deriveKey, bind_eq_ok]
  simp only [rejectIf_eq_ok, exists_const, Nat.not_lt]
  cases KeystoreCrates.hashPasswordInto password salt with
  | error error => simp
  | ok derived => simp [pure_eq_ok]

theorem encrypt_eq_ok : encrypt env password plaintext aad = .ok serialized ↔
    ∃ key ciphertext, deriveKey password env.salt = .ok key ∧
      KeystoreCrates.encrypt key env.nonce aad plaintext = some ciphertext ∧
      serialized = (EncryptedValidatorKeystore.sealing env ciphertext).toVecPretty := by
  simp only [encrypt, bind_eq_ok, okOr_eq_ok, pure_eq_ok]
  constructor
  · rintro ⟨key, derived, ciphertext, sealed, rfl⟩
    exact ⟨key, ciphertext, derived, sealed, rfl⟩
  · rintro ⟨key, ciphertext, derived, sealed, rfl⟩
    exact ⟨key, derived, ciphertext, sealed, rfl⟩

theorem decrypt_eq_ok (run : decrypt password serialized aad = .ok plaintext) :
    ∃ envelope salt nonce ciphertext key, KeystoreCrates.envelopeFromSlice serialized = some envelope ∧
      hexDecode envelope.saltHex = some salt.val ∧ hexDecode envelope.nonceHex = some nonce.val ∧
      hexDecode envelope.ciphertextHex = some ciphertext ∧
      KeystoreCrates.hashPasswordInto password salt = .ok key ∧
      KeystoreCrates.decrypt key nonce aad ciphertext = some plaintext := by
  simp only [decrypt, bind_eq_ok, okOr_eq_ok, rejectIf_eq_ok, exists_const, deriveKey_eq_ok] at run
  obtain ⟨envelope, read, _, saltBytes, saltDecoded, salt, saltFits, nonceBytes, nonceDecoded, nonce, nonceFits,
    ciphertext, decoded, key, derived, opened⟩ := run
  rw [← tryIntoFixed_eq_some.mp saltFits] at saltDecoded
  rw [← tryIntoFixed_eq_some.mp nonceFits] at nonceDecoded
  exact ⟨envelope, salt, nonce, ciphertext, key, read, saltDecoded, nonceDecoded, decoded, derived.2, opened⟩

/-- A file opens under one of the passwords only. -/
theorem decrypt_password (laws : KeystoreLaws passwords) (member : password ∈ passwords)
    (member' : password' ∈ passwords) (domain : aad ∈ [validatorKeystoreAad, validatorCandidateAad])
    (run : decrypt password serialized aad = .ok plaintext)
    (run' : decrypt password' serialized aad = .ok plaintext') : password = password' := by
  obtain ⟨envelope, salt, nonce, ciphertext, key, read, saltDecoded, nonceDecoded, decoded, derived, opened⟩ :=
    decrypt_eq_ok run
  obtain ⟨envelope', salt', nonce', ciphertext', key', read', saltDecoded', nonceDecoded', decoded', derived',
    opened'⟩ := decrypt_eq_ok run'
  cases read.symm.trans read'
  obtain rfl : salt = salt' := Subtype.ext (Option.some.inj (saltDecoded.symm.trans saltDecoded'))
  obtain rfl : nonce = nonce' := Subtype.ext (Option.some.inj (nonceDecoded.symm.trans nonceDecoded'))
  cases decoded.symm.trans decoded'
  exact (laws.exact _ member _ member' _ _ _ _ _ _ _ _ domain _ domain derived derived' opened opened').1

theorem decrypt_encrypt (laws : KeystoreLaws passwords)
    (run : encrypt env password plaintext aad = .ok serialized) : decrypt password serialized aad = .ok plaintext := by
  obtain ⟨key, ciphertext, derived, sealed, rfl⟩ := encrypt_eq_ok.mp run
  simp only [decrypt, laws.envelope, EncryptedValidatorKeystore.sealing, bind_eq_ok, okOr_eq_ok, rejectIf_eq_ok,
    hexDecode_hexEncode, tryIntoFixed_val, Option.some.injEq, exists_eq_left', exists_const, ne_eq, not_true_eq_false,
    or_self, not_false_eq_true, true_and]
  exact ⟨key, derived, laws.decrypts _ _ _ _ _ sealed⟩

theorem encrypt_length (laws : KeystoreLaws passwords)
    (run : encrypt env password plaintext aad = .ok serialized) : serialized.length = 294 + 2 * plaintext.length := by
  obtain ⟨key, ciphertext, _, sealed, rfl⟩ := encrypt_eq_ok.mp run
  rw [EncryptedValidatorKeystore.sealing_length, laws.tag _ _ _ _ _ sealed]
  omega

end ValidatorKeystore

end Crates

/-! ### Reading a keystore -/

/-- The steps of reading a file go through. -/
structure KeystoreEnvironment.Reads (env : KeystoreEnvironment) : Prop where
  opening : env.opening = .ok ()
  metadata : env.metadata = .ok ()
  reading : env.reading = .ok ()

namespace ValidatorKeystore

variable {env : KeystoreEnvironment} {directory : DataDirectory} {path encrypted : Text} {label : String}

theorem readEncryptedFile_some (run : readEncryptedFile env directory path label = .ok (some encrypted)) :
    directory.read path = some encrypted := by
  rw [readEncryptedFile, bind_eq_ok] at run
  obtain ⟨_, _, run⟩ := run
  cases held : directory.read path with
  | none =>
    rw [held] at run
    cases run
  | some content =>
    simp only [held, bind_eq_ok, pure_eq_ok, Option.some.injEq] at run
    obtain ⟨_, _, _, _, _, _, _, _, rfl⟩ := run
    rfl

theorem readEncryptedFile_fits (reads : env.Reads) (held : directory.read path = some encrypted)
    (nonempty : encrypted ≠ []) (fits : encrypted.length ≤ maxValidatorKeystoreBytes) :
    readEncryptedFile env directory path label = .ok (some encrypted) := by
  have size : ¬ (encrypted.length = 0 ∨ maxValidatorKeystoreBytes < encrypted.length) := by
    rw [List.length_eq_zero_iff]
    exact not_or.mpr ⟨nonempty, Nat.not_lt.mpr fits⟩
  simp only [readEncryptedFile, reads.opening, reads.metadata, reads.reading, held, FileAnswer.orError, rejectIf,
    if_neg size, if_neg (Nat.not_lt.mpr fits)]
  rfl

theorem readEncryptedFile_large (reads : env.Reads) (held : directory.read path = some encrypted)
    (large : maxValidatorKeystoreBytes < encrypted.length) :
    readEncryptedFile env directory path label = .error (.error (label ++ " size is invalid")) := by
  simp only [readEncryptedFile, reads.opening, reads.metadata, held, FileAnswer.orError, rejectIf,
    if_pos (Or.inr large : encrypted.length = 0 ∨ maxValidatorKeystoreBytes < encrypted.length)]
  rfl

end ValidatorKeystore

section Keys

variable [Crypto]

theorem Wallet.fromPrivateKeyHex_eq_ok {privateKeyHex : Text} {wallet : Wallet} :
    fromPrivateKeyHex privateKeyHex = .ok wallet ↔
      ∃ key : FixedBytes 32, hexDecode privateKeyHex = some key.val ∧ fromSigningKey key = wallet := by
  simp only [fromPrivateKeyHex, bind_eq_ok, okOr_eq_ok, pure_eq_ok, tryIntoFixed_eq_some]
  constructor
  · rintro ⟨bytes, decoded, key, rfl, same⟩
    exact ⟨key, decoded, same⟩
  · rintro ⟨key, decoded, same⟩
    exact ⟨key.val, decoded, key, rfl, same⟩

theorem Wallet.fromPrivateKeyHex_privateKeyHex (key : FixedBytes 32) :
    fromPrivateKeyHex (fromSigningKey key).privateKeyHex = .ok (fromSigningKey key) :=
  fromPrivateKeyHex_eq_ok.mpr ⟨key, hexDecode_hexEncode _, rfl⟩

theorem ValidatorIdentity.fromPrivateKey_eq_ok {privateKeyHex : Text} {consensus : Consensus}
    {identity : ValidatorIdentity} : fromPrivateKey privateKeyHex consensus = .ok identity ↔
      Wallet.fromPrivateKeyHex privateKeyHex = .ok identity.wallet ∧
        consensus.isValidatorAllowed identity.address = true := by
  simp only [fromPrivateKey, bind_eq_ok, rejectIf_eq_ok, pure_eq_ok, not_not, exists_const]
  constructor
  · rintro ⟨wallet, read, allowed, rfl⟩
    exact ⟨read, allowed⟩
  · rintro ⟨read, allowed⟩
    exact ⟨identity.wallet, read, allowed, rfl⟩

variable [KeystoreCrates] {passwords : Set Text} {env : KeystoreEnvironment} {directory : DataDirectory}
  {password genesisFingerprint privateKeyHex validatorAddress : Text} {serialized : Bytes} {consensus : Consensus}

namespace ValidatorKeystore

/-- What `provision` puts into the active keystore. -/
def storedKey (genesisFingerprint privateKeyHex validatorAddress : Text) : StoredValidatorKey :=
  { format := validatorKeystoreFormat, networkId := networkId, genesisFingerprint, validatorAddress, privateKeyHex }

theorem sealKey_eq_ok : sealKey env directory password privateKeyHex consensus genesisFingerprint =
      .ok (validatorAddress, serialized) ↔
    ∃ identity, ValidatorIdentity.fromPrivateKey privateKeyHex consensus = .ok identity ∧
      env.existence 1 = .ok () ∧ directory.read validatorKeystoreFileName = none ∧
      encrypt env password (storedKey genesisFingerprint privateKeyHex validatorAddress).toVec
        validatorKeystoreAad = .ok serialized ∧
      identity.address = validatorAddress := by
  simp only [sealKey, pathExists, bind_eq_ok, rejectIf_eq_ok, pure_eq_ok, FileAnswer.orError_eq_ok, exists_const,
    Prod.mk.injEq, Bool.not_eq_true]
  constructor
  · rintro ⟨identity, read, existing, ⟨answered, rfl⟩, free, sealed, encrypted, rfl, rfl⟩
    rw [Option.isSome_eq_false_iff, Option.isNone_iff_eq_none] at free
    exact ⟨identity, read, answered, free, encrypted, rfl⟩
  · rintro ⟨identity, read, answered, free, encrypted, rfl⟩
    exact ⟨identity, read, false, ⟨answered, by rw [free]; rfl⟩, rfl, serialized, encrypted, rfl, rfl⟩

/-- What was sealed for a consensus set and a fingerprint opens for them. -/
theorem openKey_sealed (laws : KeystoreLaws passwords) {identity : ValidatorIdentity}
    (read : ValidatorIdentity.fromPrivateKey privateKeyHex consensus = .ok identity)
    (encrypted : encrypt env password (storedKey genesisFingerprint privateKeyHex identity.address).toVec
      validatorKeystoreAad = .ok serialized) :
    openKey password consensus genesisFingerprint serialized = .ok identity := by
  simp only [openKey, decrypt_encrypt laws encrypted, bind_eq_ok, okOr_eq_ok, laws.key, rejectIf_eq_ok, pure_eq_ok,
    Except.ok.injEq, Option.some.injEq, exists_eq_left', storedKey, ne_eq, not_true_eq_false, or_self,
    not_false_eq_true, exists_const, true_and]
  exact ⟨identity, read, not_not.mpr rfl, rfl⟩

/-- The active keystore of a wallet's key is as long as the fingerprint makes it. -/
theorem storedKey_length (laws : KeystoreLaws passwords) {key : FixedBytes 32}
    (encrypted : encrypt env password (storedKey genesisFingerprint (Wallet.fromSigningKey key).privateKeyHex
      (Wallet.fromSigningKey key).address).toVec validatorKeystoreAad = .ok serialized) :
    serialized.length = 838 + 2 * (Json.string genesisFingerprint).length := by
  have plaintext := @StoredValidatorKey.toVec_length
    (storedKey genesisFingerprint (Wallet.fromSigningKey key).privateKeyHex (Wallet.fromSigningKey key).address)
    rfl rfl (Wallet.address_fixed _) (isFixedHex_hexEncode key)
  rw [encrypt_length laws encrypted, plaintext]
  change 294 + 2 * (272 + (Json.string genesisFingerprint).length) = _
  omega

end ValidatorKeystore

end Keys

end Kybernetes
