import Kybernetes.Base.TempFile
import Kybernetes.KeystoreFiles

namespace Kybernetes

structure StoredUserWallet where
  format : Text
  address : Text
  privateKeyHex : Text
deriving DecidableEq, Repr

/-- The members of the envelope are those of the envelope of a validator key, in the same order. -/
abbrev EncryptedUserWallet := EncryptedValidatorKeystore

/-- `serde_json::from_slice` of a stored wallet. -/
class UserWalletReader where
  storedFromSlice : Bytes → Option StoredUserWallet

def userWalletFileName : Text := str "user-wallet.json"
def userWalletFormat : Text := str "kybernetes-user-wallet-v1"
def userWalletAad : Bytes := str "KYBERNETES_USER_WALLET_V1"

/-- `serde_json::to_vec`. -/
def StoredUserWallet.toVec (self : StoredUserWallet) : Bytes :=
  Json.object [("format", Json.string self.format), ("address", Json.string self.address),
    ("private_key_hex", Json.string self.privateKeyHex)]

/-- The random values of one call of `create`. -/
structure WalletRandomness where
  signingKey : FixedBytes 32
  salt : FixedBytes 16
  nonce : FixedBytes 12
  tempSuffix : FixedBytes 32

namespace UserWalletKeystore

section

variable [KeystoreCrates]

def deriveKey (password : Text) (salt : FixedBytes 16) : Result (FixedBytes 32) := do
  rejectIf (password.length < 12) "User wallet password must be at least 12 characters"
  match KeystoreCrates.hashPasswordInto password salt with
  | .ok key => return key
  | .error error => .error (.error ("User wallet encryption key could not be derived: " ++ error))

def encrypt (random : WalletRandomness) (password : Text) (plaintext : Bytes) : Result Bytes := do
  let key ← deriveKey password random.salt
  let ciphertext ← okOr (KeystoreCrates.encrypt key random.nonce userWalletAad plaintext)
    "User wallet private key could not be encrypted"
  let envelope : EncryptedUserWallet :=
    { version := 1, kdf := str "argon2id", kdfMemoryKib := argon2MemoryKib, kdfIterations := argon2Iterations,
      kdfParallelism := argon2Parallelism, cipher := str "chacha20poly1305", saltHex := hexEncode random.salt.val,
      nonceHex := hexEncode random.nonce.val, ciphertextHex := hexEncode ciphertext }
  return envelope.toVecPretty

def decrypt (password : Text) (encrypted : Bytes) : Result Bytes := do
  let envelope ← okOr (KeystoreCrates.envelopeFromSlice encrypted) "User wallet encrypted file format is invalid"
  rejectIf (envelope.version ≠ 1 ∨ envelope.kdf ≠ str "argon2id" ∨ envelope.kdfMemoryKib ≠ argon2MemoryKib
      ∨ envelope.kdfIterations ≠ argon2Iterations ∨ envelope.kdfParallelism ≠ argon2Parallelism
      ∨ envelope.cipher ≠ str "chacha20poly1305")
    "User wallet encryption format is not supported"
  let salt ← okOr (hexDecode envelope.saltHex) "User wallet salt format is invalid"
  let salt ← okOr (tryIntoFixed 16 salt) "User wallet salt length is invalid"
  let nonceBytes ← okOr (hexDecode envelope.nonceHex) "User wallet nonce format is invalid"
  let nonce ← okOr (tryIntoFixed 12 nonceBytes) "User wallet nonce length is invalid"
  let ciphertext ← okOr (hexDecode envelope.ciphertextHex) "User wallet ciphertext format is invalid"
  let key ← deriveKey password salt
  okOr (KeystoreCrates.decrypt key nonce userWalletAad ciphertext)
    "User wallet password is incorrect or the file is corrupted"

end

def tempPath (suffix : FixedBytes 32) : Text :=
  str ".user-wallet-" ++ hexEncode suffix.val ++ str ".tmp"

def writePrivateFile (path : Text) (contents : Bytes) : FileProgram Text Unit :=
  FileProgram.writeNew path contents "User wallet temp file could not be created: "
    "User wallet file could not be written: " "User wallet file could not be synchronized: "

def writeNew (suffix : FixedBytes 32) (contents : Bytes) : FileProgram Text Unit := do
  let written ← (writePrivateFile (tempPath suffix) contents).attempt
  match written with
  | .error fault =>
    let _ ← Program.ask (FileCall.removeFile (tempPath suffix))
    .done (.error fault)
  | .ok () =>
    let published ← Program.ask (FileCall.hardLink (tempPath suffix) userWalletFileName)
    let _ ← Program.ask (FileCall.removeFile (tempPath suffix))
    Program.orError published
      "User wallet could not be moved to the active location or already exists: "

variable [Crypto] [KeystoreCrates]

/-- What is stored of a wallet. -/
def stored (wallet : Wallet) : StoredUserWallet :=
  { format := userWalletFormat, address := wallet.address, privateKeyHex := wallet.privateKeyHex }

def create (random : WalletRandomness) (password : Text) : FileProgram Text Wallet := do
  let existing ← Program.ask (FileCall.pathExists userWalletFileName)
  let () ← .done (rejectIf (existing = true) "User wallet already exists; automatic overwrite was rejected")
  let created ← Program.ask (FileCall.createDirectory)
  let () ← Program.orError created "User wallet directory could not be created: "
  let wallet := Wallet.fromSigningKey random.signingKey
  let encrypted ← .done (encrypt random password (stored wallet).toVec)
  let () ← writeNew random.tempSuffix encrypted
  return wallet

variable [UserWalletReader]

/-- The part of `load` behind the reading of the file. -/
def openWallet (password : Text) (encrypted : Bytes) : Result Wallet := do
  let plaintext ← decrypt password encrypted
  let stored ← okOr (UserWalletReader.storedFromSlice plaintext) "User wallet data format is invalid"
  rejectIf (stored.format ≠ userWalletFormat) "User wallet format is not supported"
  let wallet ← Wallet.fromPrivateKeyHex stored.privateKeyHex
  rejectIf (wallet.address ≠ stored.address) "User wallet address does not match the private key"
  return wallet

def load (password : Text) : FileProgram Text (Option Wallet) := do
  let existing ← Program.ask (FileCall.pathExists userWalletFileName)
  if existing = false then return none
  else
    let opened ← Program.ask (FileCall.openFile userWalletFileName)
    match opened with
    | .error .notFound =>
      .done (.error (.error "User wallet file could not be read: No such file or directory (os error 2)"))
    | .error (.other error) => .done (.error (.error ("User wallet file could not be read: " ++ error)))
    | .ok file =>
      let read ← Program.ask (FileCall.readToEnd file)
      let encrypted ← Program.orError read "User wallet file could not be read: "
      let wallet ← .done (openWallet password encrypted)
      return some wallet

end UserWalletKeystore

end Kybernetes
