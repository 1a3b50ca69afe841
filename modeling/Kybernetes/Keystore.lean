import Kybernetes.Base.Directory
import Kybernetes.Base.Json
import Kybernetes.Consensus

namespace Kybernetes

/-- The file system's answer to one step of a call. -/
abbrev FileAnswer := Except String Unit

structure EncryptedValidatorKeystore where
  version : UInt32
  kdf : Text
  kdfMemoryKib : UInt32
  kdfIterations : UInt32
  kdfParallelism : UInt32
  cipher : Text
  saltHex : Text
  nonceHex : Text
  ciphertextHex : Text
deriving DecidableEq, Repr

structure StoredValidatorKey where
  format : Text
  networkId : Text
  genesisFingerprint : Text
  validatorAddress : Text
  privateKeyHex : Text
deriving DecidableEq, Repr

structure StoredValidatorCandidate where
  format : Text
  networkFamily : Text
  validatorAddress : Text
  privateKeyHex : Text
deriving DecidableEq, Repr

/-- The functions the keystores take from the `argon2`, `chacha20poly1305` and `serde_json` crates. -/
class KeystoreCrates where
  /-- `hash_password_into` under the parameters of the program. -/
  hashPasswordInto : Text → FixedBytes 16 → Except String (FixedBytes 32)
  /-- The arguments are the key, the nonce, the associated data and the message. -/
  encrypt : FixedBytes 32 → FixedBytes 12 → Bytes → Bytes → Option Bytes
  decrypt : FixedBytes 32 → FixedBytes 12 → Bytes → Bytes → Option Bytes
  envelopeFromSlice : Bytes → Option EncryptedValidatorKeystore
  keyFromSlice : Bytes → Option StoredValidatorKey
  candidateFromSlice : Bytes → Option StoredValidatorCandidate

def validatorKeystoreFileName : Text := str "validator-keystore.json"
def validatorKeystoreFormat : Text := str "kybernetes-validator-key-v1"
def validatorKeystoreAad : Bytes := str "KYBERNETES_VALIDATOR_KEYSTORE_V1"
def validatorCandidateFileName : Text := str "validator-candidate.json"
def validatorCandidateFormat : Text := str "kybernetes-validator-candidate-v1"
def validatorCandidateAad : Bytes := str "KYBERNETES_VALIDATOR_CANDIDATE_V1"
def validatorCandidateNetworkFamily : Text := str "kybernetes"
def maxValidatorKeystoreBytes : Nat := 1024 * 1024
def argon2MemoryKib : UInt32 := 19456
def argon2Iterations : UInt32 := 2
def argon2Parallelism : UInt32 := 1

def EncryptedValidatorKeystore.members (self : EncryptedValidatorKeystore) : List (String × Bytes) :=
  [("version", Json.number self.version.toNat), ("kdf", Json.string self.kdf),
    ("kdf_memory_kib", Json.number self.kdfMemoryKib.toNat),
    ("kdf_iterations", Json.number self.kdfIterations.toNat),
    ("kdf_parallelism", Json.number self.kdfParallelism.toNat), ("cipher", Json.string self.cipher),
    ("salt_hex", Json.string self.saltHex), ("nonce_hex", Json.string self.nonceHex),
    ("ciphertext_hex", Json.string self.ciphertextHex)]

/-- `serde_json::to_vec_pretty`. -/
def EncryptedValidatorKeystore.toVecPretty (self : EncryptedValidatorKeystore) : Bytes :=
  Json.prettyObject self.members

/-- `serde_json::to_vec`. -/
def StoredValidatorKey.toVec (self : StoredValidatorKey) : Bytes :=
  Json.object [("format", Json.string self.format), ("network_id", Json.string self.networkId),
    ("genesis_fingerprint", Json.string self.genesisFingerprint),
    ("validator_address", Json.string self.validatorAddress),
    ("private_key_hex", Json.string self.privateKeyHex)]

def StoredValidatorCandidate.toVec (self : StoredValidatorCandidate) : Bytes :=
  Json.object [("format", Json.string self.format), ("network_family", Json.string self.networkFamily),
    ("validator_address", Json.string self.validatorAddress),
    ("private_key_hex", Json.string self.privateKeyHex)]

/-- What a call gets from the outside: random values, and the answers to the steps on files. A step
whose answer is `ok` can still fail for what the directory holds. -/
structure KeystoreEnvironment where
  signingKey : FixedBytes 32
  salt : FixedBytes 16
  nonce : FixedBytes 12
  tempSuffix : FixedBytes 32
  /-- The answers to the readings of `exists`, in their order. -/
  existence : Nat → FileAnswer
  opening : FileAnswer
  metadata : FileAnswer
  reading : FileAnswer
  directoryCreation : FileAnswer
  creation : FileAnswer
  /-- A write that fails has written some of its bytes. -/
  writing : Except (String × Nat) Unit
  synchronization : FileAnswer
  linking : FileAnswer
  tempRemoval : FileAnswer
  candidateRemoval : FileAnswer

/-- The data directory: what its files hold, by name. -/
abbrev DataDirectory := Directory Text Bytes

structure ValidatorKeystore where
  dataDirectory : String

structure ValidatorCandidateKeystore where
  dataDirectory : String

section

variable [Crypto]

namespace Wallet

def fromPrivateKeyHex (privateKeyHex : Text) : Result Wallet := do
  let privateKeyBytes ← okOr (hexDecode privateKeyHex) "Private key hex format is invalid"
  let privateKeyArray ← okOr (tryIntoFixed 32 privateKeyBytes) "Private key must be 32 bytes"
  return fromSigningKey privateKeyArray

def privateKeyHex (self : Wallet) : Text :=
  hexEncode self.signingKey.val

end Wallet

structure ValidatorIdentity where
  wallet : Wallet

structure ValidatorCandidate where
  wallet : Wallet

def ValidatorIdentity.address (self : ValidatorIdentity) : Text :=
  self.wallet.address

def ValidatorCandidate.address (self : ValidatorCandidate) : Text :=
  self.wallet.address

def ValidatorIdentity.fromPrivateKey (privateKeyHex : Text) (consensus : Consensus) : Result ValidatorIdentity := do
  let wallet ← Wallet.fromPrivateKeyHex privateKeyHex
  rejectIf (¬ consensus.isValidatorAllowed wallet.address) "Private key is not in the canonical validator set"
  return { wallet }

end

structure ValidatorActivation where
  validatorAddress : Text
  candidateRemoved : Bool
deriving DecidableEq, Repr

/-- `map_err` on the answer to a step. -/
def FileAnswer.orError (answer : FileAnswer) (context : String) : Result Unit :=
  match answer with
  | .ok () => .ok ()
  | .error error => .error (.error (context ++ error))

namespace ValidatorKeystore

def pathExists (answer : FileAnswer) (directory : DataDirectory) (path : Text) (label : String) : Result Bool := do
  answer.orError ("Could not determine " ++ label ++ " access state: ")
  return (directory.read path).isSome

def deriveKey [KeystoreCrates] (password : Text) (salt : FixedBytes 16) : Result (FixedBytes 32) := do
  rejectIf (password.length < 12) "Validator keystore password must be at least 12 characters"
  match KeystoreCrates.hashPasswordInto password salt with
  | .ok key => return key
  | .error error => .error (.error ("Validator keystore key could not be derived: " ++ error))

def encrypt [KeystoreCrates] (env : KeystoreEnvironment) (password : Text) (plaintext aad : Bytes) :
    Result Bytes := do
  let key ← deriveKey password env.salt
  let ciphertext ← okOr (KeystoreCrates.encrypt key env.nonce aad plaintext)
    "Validator private key could not be encrypted"
  let envelope : EncryptedValidatorKeystore :=
    { version := 1, kdf := str "argon2id", kdfMemoryKib := argon2MemoryKib, kdfIterations := argon2Iterations,
      kdfParallelism := argon2Parallelism, cipher := str "chacha20poly1305", saltHex := hexEncode env.salt.val,
      nonceHex := hexEncode env.nonce.val, ciphertextHex := hexEncode ciphertext }
  return envelope.toVecPretty

def decrypt [KeystoreCrates] (password : Text) (encrypted aad : Bytes) : Result Bytes := do
  let envelope ← okOr (KeystoreCrates.envelopeFromSlice encrypted) "Validator keystore format is invalid"
  rejectIf (envelope.version ≠ 1 ∨ envelope.kdf ≠ str "argon2id" ∨ envelope.kdfMemoryKib ≠ argon2MemoryKib
      ∨ envelope.kdfIterations ≠ argon2Iterations ∨ envelope.kdfParallelism ≠ argon2Parallelism
      ∨ envelope.cipher ≠ str "chacha20poly1305")
    "Validator keystore encryption format is not supported"
  let salt ← okOr (hexDecode envelope.saltHex) "Validator keystore salt format is invalid"
  let salt ← okOr (tryIntoFixed 16 salt) "Validator keystore salt length is invalid"
  let nonceBytes ← okOr (hexDecode envelope.nonceHex) "Validator keystore nonce format is invalid"
  let nonce ← okOr (tryIntoFixed 12 nonceBytes) "Validator keystore nonce length is invalid"
  let ciphertext ← okOr (hexDecode envelope.ciphertextHex) "Validator keystore ciphertext format is invalid"
  let key ← deriveKey password salt
  okOr (KeystoreCrates.decrypt key nonce aad ciphertext)
    "Validator keystore password is incorrect or the file is corrupted"

def readEncryptedFile (env : KeystoreEnvironment) (directory : DataDirectory) (path : Text) (label : String) :
    Result (Option Bytes) := do
  env.opening.orError (label ++ " could not be opened: ")
  match directory.read path with
  | none => return none
  | some encrypted =>
    env.metadata.orError (label ++ " metadata could not be read: ")
    rejectIf (encrypted.length = 0 ∨ maxValidatorKeystoreBytes < encrypted.length) (label ++ " size is invalid")
    env.reading.orError (label ++ " could not be read: ")
    rejectIf (maxValidatorKeystoreBytes < encrypted.length) (label ++ " size is invalid")
    return some encrypted

/-- The file handle is the one of the name just created. -/
def writePrivateFile (env : KeystoreEnvironment) (directory : DataDirectory) (path : Text) (contents : Bytes) :
    Result Unit × DataDirectory :=
  match env.creation with
  | .error error =>
    (.error (.error ("Validator keystore temp file could not be created: " ++ error)), directory)
  | .ok () =>
    match directory.create path [] with
    | none =>
      (.error (.error "Validator keystore temp file could not be created: File exists (os error 17)"), directory)
    | some directory =>
      match env.writing with
      | .error (error, written) =>
        (.error (.error ("Validator keystore could not be written: " ++ error)),
          directory.write path (contents.take written))
      | .ok () =>
        let directory := directory.write path contents
        match env.synchronization with
        | .error error =>
          (.error (.error ("Validator keystore could not be synchronized to disk: " ++ error)), directory)
        | .ok () => (.ok (), directory)

/-- `fs::remove_file`: whether it has removed the file. -/
def removeFile (answer : FileAnswer) (directory : DataDirectory) (path : Text) : Bool × DataDirectory :=
  match answer with
  | .error _ => (false, directory)
  | .ok () => ((directory.read path).isSome, directory.unlink path)

def tempPath (tempPrefix : Text) (env : KeystoreEnvironment) : Text :=
  tempPrefix ++ str "-" ++ hexEncode env.tempSuffix.val ++ str ".tmp"

def storeWithoutOverwrite (env : KeystoreEnvironment) (dataDirectory : String) (directory : DataDirectory)
    (finalPath tempPrefix : Text) (serialized : Bytes) : Result Unit × DataDirectory :=
  match env.directoryCreation with
  | .error error =>
    (.error (.error ("Validator keystore data directory could not be created (" ++ dataDirectory ++ "): "
      ++ error)), directory)
  | .ok () =>
    let tempPath := tempPath tempPrefix env
    match writePrivateFile env directory tempPath serialized with
    | (.error fault, directory) => (.error fault, (removeFile env.tempRemoval directory tempPath).2)
    | (.ok (), directory) =>
      let moved := "Validator keystore could not be moved to the active location or already exists: "
      match env.linking with
      | .error error => (.error (.error (moved ++ error)), (removeFile env.tempRemoval directory tempPath).2)
      | .ok () =>
        match directory.link tempPath finalPath with
        | none =>
          (.error (.error (moved ++ "File exists (os error 17)")),
            (removeFile env.tempRemoval directory tempPath).2)
        | some directory => (.ok (), (removeFile env.tempRemoval directory tempPath).2)

section

variable [Crypto] [KeystoreCrates]

/-- The part of `provision` in front of the file steps: the address and the file to store. -/
def sealKey (env : KeystoreEnvironment) (directory : DataDirectory) (password privateKeyHex : Text)
    (consensus : Consensus) (genesisFingerprint : Text) : Result (Text × Bytes) := do
  let identity ← ValidatorIdentity.fromPrivateKey privateKeyHex consensus
  let validatorAddress := identity.address
  let existing ← pathExists (env.existence 1) directory validatorKeystoreFileName "Validator keystore"
  rejectIf existing "Validator keystore already exists; automatic overwrite was rejected"
  let storedKey : StoredValidatorKey :=
    { format := validatorKeystoreFormat, networkId := networkId, genesisFingerprint, validatorAddress,
      privateKeyHex }
  let serialized ← encrypt env password storedKey.toVec validatorKeystoreAad
  return (validatorAddress, serialized)

def provision (self : ValidatorKeystore) (env : KeystoreEnvironment) (directory : DataDirectory)
    (password privateKeyHex : Text) (consensus : Consensus) (genesisFingerprint : Text) :
    Result Text × DataDirectory :=
  match sealKey env directory password privateKeyHex consensus genesisFingerprint with
  | .error fault => (.error fault, directory)
  | .ok (validatorAddress, serialized) =>
    match storeWithoutOverwrite env self.dataDirectory directory validatorKeystoreFileName
        (str ".validator-keystore") serialized with
    | (.error fault, directory) => (.error fault, directory)
    | (.ok (), directory) => (.ok validatorAddress, directory)

/-- The part of `load_authorized` behind the reading of the file. -/
def openKey (password : Text) (consensus : Consensus) (expectedGenesisFingerprint : Text) (encrypted : Bytes) :
    Result ValidatorIdentity := do
  let plaintext ← decrypt password encrypted validatorKeystoreAad
  let storedKey ← okOr (KeystoreCrates.keyFromSlice plaintext) "Validator keystore payload is invalid"
  rejectIf (storedKey.format ≠ validatorKeystoreFormat ∨ storedKey.networkId ≠ networkId
      ∨ storedKey.genesisFingerprint ≠ expectedGenesisFingerprint)
    "Validator keystore does not match the network or genesis identity"
  let identity ← ValidatorIdentity.fromPrivateKey storedKey.privateKeyHex consensus
  rejectIf (identity.address ≠ storedKey.validatorAddress)
    "Validator keystore address does not match the private key"
  return identity

def loadAuthorized (env : KeystoreEnvironment) (directory : DataDirectory) (password : Text)
    (consensus : Consensus) (expectedGenesisFingerprint : Text) : Result (Option ValidatorIdentity) := do
  match ← readEncryptedFile env directory validatorKeystoreFileName "Validator keystore" with
  | none => return none
  | some encrypted =>
    let identity ← openKey password consensus expectedGenesisFingerprint encrypted
    return some identity

end

end ValidatorKeystore

namespace ValidatorCandidateKeystore

open ValidatorKeystore

variable [Crypto] [KeystoreCrates]

/-- The part of `generate` in front of the file steps. -/
def sealCandidate (env : KeystoreEnvironment) (directory : DataDirectory) (password : Text) :
    Result (Text × Bytes) := do
  let existing ← pathExists (env.existence 0) directory validatorCandidateFileName "Validator candidate keystore"
  rejectIf existing "Validator candidate already exists; automatic overwrite was rejected"
  let wallet := Wallet.fromSigningKey env.signingKey
  let validatorAddress := wallet.address
  let storedCandidate : StoredValidatorCandidate :=
    { format := validatorCandidateFormat, networkFamily := validatorCandidateNetworkFamily, validatorAddress,
      privateKeyHex := wallet.privateKeyHex }
  let serialized ← encrypt env password storedCandidate.toVec validatorCandidateAad
  return (validatorAddress, serialized)

def generate (self : ValidatorCandidateKeystore) (env : KeystoreEnvironment) (directory : DataDirectory)
    (password : Text) : Result Text × DataDirectory :=
  match sealCandidate env directory password with
  | .error fault => (.error fault, directory)
  | .ok (validatorAddress, serialized) =>
    match storeWithoutOverwrite env self.dataDirectory directory validatorCandidateFileName
        (str ".validator-candidate") serialized with
    | (.error fault, directory) => (.error fault, directory)
    | (.ok (), directory) => (.ok validatorAddress, directory)

/-- The part of `load` behind the reading of the file. -/
def openCandidate (password : Text) (encrypted : Bytes) : Result ValidatorCandidate := do
  let plaintext ← decrypt password encrypted validatorCandidateAad
  let storedCandidate ← okOr (KeystoreCrates.candidateFromSlice plaintext)
    "Validator candidate payload is invalid"
  rejectIf (storedCandidate.format ≠ validatorCandidateFormat
      ∨ storedCandidate.networkFamily ≠ validatorCandidateNetworkFamily)
    "Validator candidate does not match the network family or format"
  let wallet ← Wallet.fromPrivateKeyHex storedCandidate.privateKeyHex
  rejectIf (wallet.address ≠ storedCandidate.validatorAddress)
    "Validator candidate address does not match the private key"
  return { wallet }

def load (env : KeystoreEnvironment) (directory : DataDirectory) (password : Text) :
    Result (Option ValidatorCandidate) := do
  match ← readEncryptedFile env directory validatorCandidateFileName "Validator candidate keystore" with
  | none => return none
  | some encrypted =>
    let candidate ← openCandidate password encrypted
    return some candidate

/-- The part of `activate` in front of `provision`. -/
def findCandidate (env : KeystoreEnvironment) (directory : DataDirectory) (password : Text) :
    Result ValidatorCandidate := do
  let existing ← pathExists (env.existence 0) directory validatorKeystoreFileName "Validator keystore"
  rejectIf existing "Validator keystore already exists; automatic overwrite was rejected"
  let candidate ← load env directory password
  okOr candidate "Validator candidate keystore was not found"

def activate (self : ValidatorCandidateKeystore) (env : KeystoreEnvironment) (directory : DataDirectory)
    (password : Text) (consensus : Consensus) (genesisFingerprint : Text) :
    Result ValidatorActivation × DataDirectory :=
  match findCandidate env directory password with
  | .error fault => (.error fault, directory)
  | .ok candidate =>
    let activeKeystore : ValidatorKeystore := { dataDirectory := self.dataDirectory }
    match activeKeystore.provision env directory password candidate.wallet.privateKeyHex consensus
        genesisFingerprint with
    | (.error fault, directory) => (.error fault, directory)
    | (.ok _, directory) =>
      let (candidateRemoved, directory) := removeFile env.candidateRemoval directory validatorCandidateFileName
      (.ok { validatorAddress := candidate.address, candidateRemoved }, directory)

end ValidatorCandidateKeystore

end Kybernetes
