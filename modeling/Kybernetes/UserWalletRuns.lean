import Kybernetes.ChainStore
import Kybernetes.KeystoreActivation
import Kybernetes.UserWallet

namespace Kybernetes

open Disk

section

variable [Crypto] [KeystoreCrates] [UserWalletReader]

/-- A call on the user wallet of a data directory. -/
inductive WalletCall
  | create (random : WalletRandomness) (password : Text)
  | load (password : Text)

namespace WalletCall

abbrev Value : WalletCall → Type
  | create _ _ => Wallet
  | load _ => Option Wallet

def program : (call : WalletCall) → FileProgram Text call.Value
  | create random password => UserWalletKeystore.create random password
  | load password => UserWalletKeystore.load password

/-- The name of its temporary file. -/
def own : WalletCall → Option Text
  | create random _ => some (UserWalletKeystore.tempPath random.tempSuffix)
  | load _ => none

/-- The call puts its wallet into these bytes. -/
def Seals (call : WalletCall) (content : Bytes) : Prop :=
  ∃ random password, call = create random password ∧ UserWalletKeystore.encrypt random password
    (UserWalletKeystore.stored (Wallet.fromSigningKey random.signingKey)).toVec = .ok content

end WalletCall

/-- What a call does to a directory in which others work as well. -/
structure WalletGuarantee (own : Option Text) (allowed : Set (Option Bytes)) (s t : Disk Text) : Prop where
  others : ∀ name, own ≠ some name → name ≠ userWalletFileName → Spares name s t
  longer : Extends s t
  published : ∀ file, s.entries userWalletFileName = some file → t.entries userWalletFileName = some file
  whole : s.Whole allowed userWalletFileName → t.Whole allowed userWalletFileName

/-- What it expects of the others. -/
structure WalletRely (own : Option Text) (allowed : Set (Option Bytes)) (s t : Disk Text) : Prop where
  mine : ∀ name, own = some name → Spares name s t
  longer : Extends s t
  published : ∀ file, s.entries userWalletFileName = some file → t.entries userWalletFileName = some file
  whole : s.Whole allowed userWalletFileName → t.Whole allowed userWalletFileName

variable {own : Option Text} {name : Text} {allowed : Set (Option Bytes)} {s t u : Disk Text}

omit [Crypto] [KeystoreCrates] [UserWalletReader] in
theorem WalletRely.refl (own : Option Text) (allowed : Set (Option Bytes)) (s : Disk Text) :
    WalletRely own allowed s s :=
  ⟨fun name _ => Spares.refl name s, Extends.refl s, fun _ held => held, id⟩

omit [Crypto] [KeystoreCrates] [UserWalletReader] in
theorem WalletRely.trans (first : WalletRely own allowed s t) (rest : WalletRely own allowed t u) :
    WalletRely own allowed s u :=
  ⟨fun name is => (first.mine name is).trans (rest.mine name is), first.longer.trans rest.longer,
    fun file held => rest.published file (first.published file held), fun whole => rest.whole (first.whole whole)⟩

omit [Crypto] [KeystoreCrates] [UserWalletReader] in
theorem WalletGuarantee.trans (first : WalletGuarantee own allowed s t) (rest : WalletGuarantee own allowed t u) :
    WalletGuarantee own allowed s u :=
  ⟨fun name distinct apart => (first.others name distinct apart).trans (rest.others name distinct apart),
    first.longer.trans rest.longer, fun file held => rest.published file (first.published file held),
    fun whole => rest.whole (first.whole whole)⟩

omit [Crypto] [KeystoreCrates] [UserWalletReader] in
/-- Names come to the disk by themselves. -/
theorem settle_guarantee (own : Option Text) (s : Disk Text) (settled : Text → Bool) :
    WalletGuarantee own allowed s (s.settle settled) :=
  ⟨fun name _ _ => settle_spares s settled name, settle_extends s settled, fun _ held => held,
    fun whole => whole.settle settled⟩

omit [Crypto] [KeystoreCrates] [UserWalletReader] in
theorem within_guarantee (within : Within name s t) (apart : userWalletFileName ≠ name) :
    WalletGuarantee (some name) allowed s t := by
  have wallet := within.spares userWalletFileName apart
  refine ⟨fun other distinct _ => within.spares other ?_, within.longer, fun file held => ?_, fun whole => ?_⟩
  · rintro rfl
    exact distinct rfl
  · exact wallet.entry.trans held
  · exact (whole.of_spares wallet within.longer).1

omit [Crypto] [KeystoreCrates] [UserWalletReader] in
/-- The wallet file gets its name where there is none. -/
theorem link_guarantee {file : Nat} {content : File} (owns : s.Owns name file content)
    (synced : content.synced = true) (permitted : some content.bytes ∈ allowed)
    (free : s.entries userWalletFileName = none) :
    WalletGuarantee (some name) allowed s (s.rebind userWalletFileName (some name)) ∧
      (s.rebind userWalletFileName (some name)).entries userWalletFileName = some file := by
  have source : (some name).bind s.entries = some file := owns.entry
  have entry := rebind_entry s userWalletFileName (some name)
  refine ⟨⟨fun other distinct apart => rebind_spares apart.symm distinct, rebind_extends s _ _, ?_, ?_⟩,
    entry.trans source⟩
  · intro other held
    rw [free] at held
    cases held
  · intro whole
    refine whole.rebind (fun other held => ?_) ?_
    · rw [source, Option.some.injEq] at held
      rw [← held, owns.holds]
      exact synced
    · rw [source, Option.map_some, owns.holds]
      exact permitted

omit [Crypto] [KeystoreCrates] [UserWalletReader] in
theorem UserWalletKeystore.tempPath_ne (suffix : FixedBytes 32) : userWalletFileName ≠ tempPath suffix := by
  intro same
  have hidden : (tempPath suffix).head? = some 46 := rfl
  rw [← same] at hidden
  exact absurd hidden (by decide)

/-- The file of a wallet is on the disk as a whole. -/
def HoldsWallet (content : Bytes) (s : Disk Text) : Prop :=
  ∃ file, s.entries userWalletFileName = some file ∧ s.files file = { bytes := content, synced := true }

omit [Crypto] [KeystoreCrates] [UserWalletReader] in
theorem HoldsWallet.mono {content : Bytes} (holds : HoldsWallet content s) (longer : Extends s t)
    (published : ∀ file, s.entries userWalletFileName = some file → t.entries userWalletFileName = some file) :
    HoldsWallet content t := by
  obtain ⟨file, entry, content⟩ := holds
  have same := longer.files file (s.entries_lt _ file entry) (by rw [content])
  exact ⟨file, published file entry, same.trans content⟩

/-- What is to hold when a call has come to its end. -/
def WalletCall.post (allowed : Set (Option Bytes)) : (call : WalletCall) → Result call.Value → Disk Text → Prop
  | create random password, result, t => ∀ wallet, result = .ok wallet →
      wallet = Wallet.fromSigningKey random.signingKey ∧ ∃ content, HoldsWallet content t ∧
        UserWalletKeystore.encrypt random password (UserWalletKeystore.stored wallet).toVec = .ok content
  | load password, result, _ => ∀ wallet, result = .ok (some wallet) →
      ∃ content, some content ∈ allowed ∧ UserWalletKeystore.openWallet password content = .ok wallet

/-- A call that fails promises nothing. -/
theorem WalletCall.post_error (call : WalletCall) (fault : Fault) (t : Disk Text) :
    call.post allowed (.error fault) t := by
  cases call with
  | create random password =>
    intro wallet wrong
    cases wrong
  | load password =>
    intro wallet wrong
    cases wrong

namespace UserWalletKeystore

omit [Crypto] [KeystoreCrates] [UserWalletReader] in
/-- `write_new` among others: it gives the file its name as a whole and only where there is none. -/
theorem writeNew_honours (suffix : FixedBytes 32) {contents : Bytes} (permitted : some contents ∈ allowed)
    (whole : s.Whole allowed userWalletFileName) :
    (writeNew suffix contents).Honours perform (WalletRely (some (tempPath suffix)) allowed)
      (WalletGuarantee (some (tempPath suffix)) allowed)
      (fun result t => result = .ok () → HoldsWallet contents t) s := by
  have apart := tempPath_ne suffix
  have first : (writePrivateFile (tempPath suffix) contents).Honours perform
      (WalletRely (some (tempPath suffix)) allowed) (WalletGuarantee (some (tempPath suffix)) allowed)
      (fun result t => t.Whole allowed userWalletFileName ∧
        (result = .ok () → ∃ file, t.Owns (tempPath suffix) file { bytes := contents, synced := true })) s := by
    refine Disk.writeNew_honours (fun s t rely => rely.mine _ rfl) (fun s t _ within => within_guarantee within apart)
      (fun s t rely => rely.whole) (fun s t within => (within_guarantee within apart).whole) whole contents _ _ _
  have removed : ∀ (u : Disk Text) chance, WalletGuarantee (some (tempPath suffix)) allowed u
      (perform chance (.removeFile (tempPath suffix)) u).2 := by
    intro u chance
    rcases perform_removeFile u chance (tempPath suffix) with run | run
    · rw [run]
      exact settle_guarantee _ u _
    · rw [run]
      exact within_guarantee ((settle_within _ u _).trans (unbind_within _ _)) apart
  refine Program.Honours.bind (Program.Honours.attempt (first.mono ?_))
  rintro result t ⟨whole, written⟩
  cases result with
  | error fault =>
    dsimp only
    rw [Program.ask_bind]
    exact fun u rely chance => ⟨removed u chance, fun wrong => absurd wrong (by simp)⟩
  | ok _ =>
    obtain ⟨file, owns⟩ := written rfl
    dsimp only
    simp only [Program.ask_bind]
    intro u rely chance
    have owns := owns.of_spares (rely.mine _ rfl)
    rcases perform_hardLink u chance owns.entry userWalletFileName with ⟨error, run⟩ | ⟨free, run⟩
    · rw [run]
      exact ⟨settle_guarantee _ u _, fun v _ chance => ⟨removed v chance, fun wrong => absurd wrong (by simp)⟩⟩
    · rw [run]
      have owns := owns.of_spares (settle_spares u chance.settled _)
      obtain ⟨linked, entry⟩ := @link_guarantee _ allowed _ _ _ owns rfl permitted free
      refine ⟨(settle_guarantee _ u _).trans linked, fun v rely chance' => ⟨removed v chance', fun _ => ?_⟩⟩
      have holds : HoldsWallet contents ((u.settle chance.settled).rebind userWalletFileName
          (some (tempPath suffix))) := ⟨file, entry, owns.holds⟩
      exact (holds.mono rely.longer rely.published).mono (removed v chance').longer (removed v chance').published

/-- `create` among others. -/
theorem create_honours {random : WalletRandomness} {password : Text}
    (permitted : ∀ content, (WalletCall.create random password).Seals content → some content ∈ allowed)
    (whole : s.Whole allowed userWalletFileName) :
    (create random password).Honours perform (WalletRely (some (tempPath random.tempSuffix)) allowed)
      (WalletGuarantee (some (tempPath random.tempSuffix)) allowed)
      ((WalletCall.create random password).post allowed) s := by
  simp only [create, Program.ask_bind]
  intro t rely chance
  refine ⟨settle_guarantee _ t chance.settled, ?_⟩
  have whole := (rely.whole whole).settle chance.settled
  rw [perform_pathExists]
  dsimp only
  cases rejectIf ((perform chance (.pathExists userWalletFileName) t).1 = true)
      "User wallet already exists; automatic overwrite was rejected" with
  | error fault => exact WalletCall.post_error (.create random password) fault _
  | ok _ =>
    simp only [Program.done_ok_bind]
    intro u rely chance'
    have whole := rely.whole whole
    rcases perform_createDirectory u chance' with ⟨error, _, run⟩ | run
    · rw [run]
      exact ⟨settle_guarantee _ u _, WalletCall.post_error (.create random password) _ _⟩
    · rw [run]
      refine ⟨settle_guarantee _ u _, ?_⟩
      simp only [Program.orError_ok_bind]
      cases sealed : encrypt random password (stored (Wallet.fromSigningKey random.signingKey)).toVec with
      | error fault => exact WalletCall.post_error (.create random password) fault _
      | ok content =>
        simp only [Program.done_ok_bind]
        refine Program.Honours.bind ((writeNew_honours random.tempSuffix
          (permitted content ⟨random, password, rfl, sealed⟩) (whole.settle chance'.settled)).mono ?_)
        intro result v written
        cases result with
        | error fault => exact WalletCall.post_error (.create random password) fault _
        | ok _ =>
          intro wallet same
          cases same
          exact ⟨rfl, content, written rfl, sealed⟩

/-- `load` among others. -/
theorem load_honours (own : Option Text) {password : Text} (whole : s.Whole allowed userWalletFileName) :
    (load password).Honours perform (WalletRely own allowed) (WalletGuarantee own allowed)
      ((WalletCall.load password).post allowed) s := by
  simp only [load, Program.ask_bind]
  intro t rely chance
  refine ⟨settle_guarantee _ t chance.settled, ?_⟩
  have whole := (rely.whole whole).settle chance.settled
  rw [perform_pathExists]
  dsimp only
  split
  · intro wallet wrong
    cases wrong
  · intro u rely chance'
    have whole := rely.whole whole
    rcases perform_openFile u chance' userWalletFileName with ⟨error, _, run⟩ | ⟨_, run⟩ | ⟨file, held, run⟩
    · rw [run]
      exact ⟨settle_guarantee _ u _, WalletCall.post_error (.load password) _ _⟩
    · rw [run]
      exact ⟨settle_guarantee _ u _, WalletCall.post_error (.load password) _ _⟩
    · rw [run]
      refine ⟨settle_guarantee _ u _, ?_⟩
      have content : (u.files file).synced = true ∧ some (u.files file).bytes ∈ allowed := by
        have shown := whole.read
        rw [Disk.read, held] at shown
        exact ⟨whole.entry file held, shown⟩
      simp only
      intro v rely chance''
      have same : v.files file = u.files file :=
        rely.longer.files file (u.entries_lt _ file held) content.1
      rcases perform_readToEnd v chance'' file with ⟨error, _, run⟩ | run
      · rw [run]
        exact ⟨settle_guarantee _ v _, WalletCall.post_error (.load password) _ _⟩
      · rw [run]
        refine ⟨settle_guarantee _ v _, ?_⟩
        simp only [Program.orError_ok_bind]
        cases opened : openWallet password (v.files file).bytes with
        | error fault => exact WalletCall.post_error (.load password) fault _
        | ok wallet =>
          intro wallet' is
          cases is
          refine ⟨(v.files file).bytes, ?_, opened⟩
          rw [same]
          exact content.2

end UserWalletKeystore

/-! ### What was sealed opens again -/

/-- What is relied upon of the crates: `serde_json` reads what it has written, and decryption gives back what
was encrypted. -/
structure UserWalletLaws [KeystoreCrates] [UserWalletReader] : Prop where
  envelope : ∀ envelope : EncryptedUserWallet,
    KeystoreCrates.envelopeFromSlice envelope.toVecPretty = some envelope
  stored : ∀ stored : StoredUserWallet, UserWalletReader.storedFromSlice stored.toVec = some stored
  decrypts : ∀ key nonce plaintext ciphertext,
    KeystoreCrates.encrypt key nonce userWalletAad plaintext = some ciphertext →
      KeystoreCrates.decrypt key nonce userWalletAad ciphertext = some plaintext

namespace UserWalletKeystore

variable {random random' : WalletRandomness} {password password' : Text} {plaintext plaintext' content : Bytes}

/-- What `encrypt` puts into the file around a ciphertext. -/
def envelope (random : WalletRandomness) (ciphertext : Bytes) : EncryptedUserWallet :=
  { version := 1, kdf := str "argon2id", kdfMemoryKib := argon2MemoryKib, kdfIterations := argon2Iterations,
    kdfParallelism := argon2Parallelism, cipher := str "chacha20poly1305", saltHex := hexEncode random.salt.val,
    nonceHex := hexEncode random.nonce.val, ciphertextHex := hexEncode ciphertext }

omit [Crypto] [UserWalletReader] in
theorem encrypt_eq_ok : encrypt random password plaintext = .ok content ↔
    ∃ key ciphertext, deriveKey password random.salt = .ok key ∧
      KeystoreCrates.encrypt key random.nonce userWalletAad plaintext = some ciphertext ∧
      content = (envelope random ciphertext).toVecPretty := by
  simp only [encrypt, bind_eq_ok, okOr_eq_ok, pure_eq_ok]
  constructor
  · rintro ⟨key, derived, ciphertext, sealed, rfl⟩
    exact ⟨key, ciphertext, derived, sealed, rfl⟩
  · rintro ⟨key, ciphertext, derived, sealed, rfl⟩
    exact ⟨key, derived, ciphertext, sealed, rfl⟩

omit [Crypto] [UserWalletReader] in
/-- The salt of a file can be told from its bytes. -/
theorem salt_eq_of_encrypt (first : encrypt random password plaintext = .ok content)
    (second : encrypt random' password' plaintext' = .ok content) : random.salt = random'.salt := by
  obtain ⟨_, ciphertext, _, _, rfl⟩ := encrypt_eq_ok.mp first
  obtain ⟨_, ciphertext', _, _, same⟩ := encrypt_eq_ok.mp second
  have envelopes := EncryptedValidatorKeystore.toVecPretty_injective same
  exact Subtype.ext (hexEncode_inj (congrArg EncryptedValidatorKeystore.saltHex envelopes))

theorem openWallet_sealed (laws : UserWalletLaws) {key : FixedBytes 32}
    (sealed : encrypt random password (stored (Wallet.fromSigningKey key)).toVec = .ok content) :
    openWallet password content = .ok (Wallet.fromSigningKey key) := by
  obtain ⟨derivedKey, ciphertext, derived, encrypted, rfl⟩ := encrypt_eq_ok.mp sealed
  have decrypted : decrypt password (envelope random ciphertext).toVecPretty =
      .ok (stored (Wallet.fromSigningKey key)).toVec := by
    simp only [decrypt, laws.envelope, envelope, bind_eq_ok, okOr_eq_ok, rejectIf_eq_ok, hexDecode_hexEncode,
      tryIntoFixed_val, Option.some.injEq, exists_eq_left', exists_const, ne_eq, not_true_eq_false, or_self,
      not_false_eq_true, true_and]
    exact ⟨derivedKey, derived, laws.decrypts _ _ _ _ encrypted⟩
  simp only [openWallet, decrypted, bind_eq_ok, okOr_eq_ok, laws.stored, rejectIf_eq_ok, pure_eq_ok,
    Except.ok.injEq, Option.some.injEq, exists_eq_left', stored, ne_eq, not_true_eq_false, not_false_eq_true,
    exists_const, true_and]
  exact ⟨_, Wallet.fromPrivateKeyHex_privateKeyHex key, not_not.mpr rfl, rfl⟩

/-- A load none of whose calls is refused gives what the file opens to. -/
theorem load_fine {wallet : Wallet} (holds : HoldsWallet content s) (opened : openWallet password content = .ok wallet)
    {chances : List (FileChance Text)} (enough : 3 ≤ chances.length)
    (fine : ∀ chance ∈ chances, chance.refusal = none) :
    ((load password).runFor perform chances s).1 = .done (.ok (some wallet)) := by
  obtain ⟨file, entry, held⟩ := holds
  rcases chances with _ | ⟨c₁, _ | ⟨c₂, _ | ⟨c₃, rest⟩⟩⟩
  iterate 3
    simp only [List.length_cons, List.length_nil] at enough
    omega
  have first : perform c₁ (.pathExists userWalletFileName) s = (true, s.settle c₁.settled) := by
    have found : (c₁.refusal.isNone && (s.entries userWalletFileName).isSome) = true := by
      rw [fine c₁ (by simp), entry]
      rfl
    exact Prod.ext found rfl
  obtain ⟨s₁, settled, entry₁, files₁⟩ : ∃ s₁, s₁ = s.settle c₁.settled ∧
      s₁.entries userWalletFileName = some file ∧ s₁.files file = { bytes := content, synced := true } :=
    ⟨_, rfl, entry, held⟩
  obtain ⟨s₂, second, files₂⟩ : ∃ s₂, perform c₂ (.openFile userWalletFileName) s₁ = (.ok file, s₂) ∧
      s₂.files file = { bytes := content, synced := true } := by
    rcases perform_openFile s₁ c₂ userWalletFileName with ⟨error, refused, _⟩ | ⟨none, _⟩ | ⟨other, named, run⟩
    · rw [fine c₂ (by simp)] at refused
      cases refused
    · rw [entry₁] at none
      cases none
    · cases entry₁.symm.trans named
      exact ⟨_, run, files₁⟩
  have third : (perform c₃ (.readToEnd file) s₂).1 = .ok content := by
    rcases perform_readToEnd s₂ c₃ file with ⟨error, refused, _⟩ | run
    · rw [fine c₃ (by simp)] at refused
      cases refused
    · rw [run, files₂]
  simp only [load, Program.ask_bind, Program.runFor, first, ← settled, Bool.true_eq_false, if_false, second, third,
    Program.orError_ok_bind, opened, Program.done_ok_bind]
  rfl

end UserWalletKeystore

/-! ### All calls at once -/

/-- The random values of a creation and its password. -/
structure WalletCreation where
  random : WalletRandomness
  password : Text

/-- The calls on the user wallet, creations and loads. -/
abbrev walletCalls {ι κ : Type} (creations : ι → WalletCreation) (loads : κ → Text) : ι ⊕ κ → WalletCall
  | .inl i => .create (creations i).random (creations i).password
  | .inr j => .load (loads j)

/-- What the wallet file can hold. -/
def walletContents {ι : Type} (creations : ι → WalletCreation) (initial : Option Bytes) : Set (Option Bytes) :=
  {content | content = initial ∨ ∃ i bytes, content = some bytes ∧
    (WalletCall.create (creations i).random (creations i).password).Seals bytes}

section Pool

variable {ι κ : Type} {creations : ι → WalletCreation} {loads : κ → Text} {initial : Option Bytes}

omit [UserWalletReader] [Crypto] [KeystoreCrates] in
theorem own_eq (suffixes : Function.Injective fun i => (creations i).random.tempSuffix) {call call' : ι ⊕ κ}
    {name : Text} (own : (walletCalls creations loads call).own = some name)
    (own' : (walletCalls creations loads call').own = some name) : call = call' := by
  cases call with
  | inr j => cases own
  | inl i =>
    cases call' with
    | inr j => cases own'
    | inl i' =>
      have paths := own.trans own'.symm
      simp only [WalletCall.own, Option.some.injEq, UserWalletKeystore.tempPath, List.append_assoc] at paths
      have texts := List.append_inj_left (List.append_cancel_left paths)
        (by rw [hexEncode_length, hexEncode_length, (creations i).random.tempSuffix.property,
          (creations i').random.tempSuffix.property])
      rw [suffixes (Subtype.ext (hexEncode_inj texts))]

omit [UserWalletReader] [Crypto] [KeystoreCrates] in
theorem own_ne {call : ι ⊕ κ} {name : Text} (own : (walletCalls creations loads call).own = some name) :
    name ≠ userWalletFileName := by
  cases call with
  | inr j => cases own
  | inl i =>
    cases own
    exact (UserWalletKeystore.tempPath_ne _).symm

/-- The terms that creations and loads keep with each other. -/
def walletTerms (suffixes : Function.Injective fun i => (creations i).random.tempSuffix) (loads : κ → Text)
    (initial : Option Bytes) : Pool.Terms perform fail fun call => (walletCalls creations loads call).program where
  inv s := s.Whole (walletContents creations initial) userWalletFileName
  rely call := WalletRely (walletCalls creations loads call).own (walletContents creations initial)
  guarantee call := WalletGuarantee (walletCalls creations loads call).own (walletContents creations initial)
  ready _ s := s.Whole (walletContents creations initial) userWalletFileName
  post call := (walletCalls creations loads call).post (walletContents creations initial)
  rely_refl _ s := WalletRely.refl _ _ s
  rely_trans _ _ _ _ first rest := first.trans rest
  fits call call' s t apart _ guarantee := by
    refine ⟨fun name own' => guarantee.others name (fun own => apart (own_eq suffixes own own')) (own_ne own'),
      guarantee.longer, guarantee.published, guarantee.whole⟩
  keeps _ _ _ whole guarantee := guarantee.whole whole
  ready_rely _ _ _ rely whole := rely.whole whole
  post_rely call result s t rely post := by
    cases call with
    | inl i =>
      intro wallet same
      obtain ⟨is, content, holds, sealed⟩ := post wallet same
      exact ⟨is, content, holds.mono rely.longer rely.published, sealed⟩
    | inr j => exact post
  honours call s whole _ := by
    cases call with
    | inl i => exact UserWalletKeystore.create_honours (fun content seals => Or.inr ⟨i, content, rfl, seals⟩) whole
    | inr j => exact UserWalletKeystore.load_honours _ whole
  inv_fail damage _ whole := whole.fail damage
  ready_fail damage _ _ _ whole := whole.fail damage

/-- What the user can count on. -/
structure WalletsKept (creations : ι → WalletCreation) (loads : κ → Text) (initial : Option Bytes)
    (pool : Pool (ι ⊕ κ) (FileCall Text) FileCall.Answer (fun call => (walletCalls creations loads call).Value)
      (Disk Text)) : Prop where
  /-- The file is the one from the start or the whole file of one creation. -/
  content : pool.shared.read userWalletFileName ∈ walletContents creations initial
  /-- A wallet that was given out can be loaded. -/
  loadable : ∀ i wallet, pool.progress (.inl i) = .running (.done (.ok wallet)) →
    wallet = Wallet.fromSigningKey (creations i).random.signingKey ∧
      ∀ chances : List (FileChance Text), 3 ≤ chances.length → (∀ chance ∈ chances, chance.refusal = none) →
        ((UserWalletKeystore.load (creations i).password).runFor perform chances pool.shared).1 =
          .done (.ok (some wallet))
  /-- No two creations give out a wallet. -/
  single : ∀ i j wallet wallet', pool.progress (.inl i) = .running (.done (.ok wallet)) →
    pool.progress (.inl j) = .running (.done (.ok wallet')) → i = j
  /-- A load gives the wallet of a whole file. -/
  loaded : ∀ j wallet, pool.progress (.inr j) = .running (.done (.ok (some wallet))) →
    ∃ content, some content ∈ walletContents creations initial ∧
      UserWalletKeystore.openWallet (loads j) content = .ok wallet

/-- While the power is on, a file that is there stays as it is. -/
theorem run_stays [DecidableEq ι] [DecidableEq κ]
    (suffixes : Function.Injective fun i => (creations i).random.tempSuffix)
    {pool : Pool (ι ⊕ κ) (FileCall Text) FileCall.Answer (fun call => (walletCalls creations loads call).Value)
      (Disk Text)} (kept : Pool.Kept (walletTerms suffixes loads initial) pool) {content : Bytes}
    (holds : HoldsWallet content pool.shared) {events : List (PoolEvent (ι ⊕ κ) (FileChance Text) (Damage Text))}
    (powered : ∀ damage, .outage damage ∉ events) :
    HoldsWallet content
      (runFrom (Pool.step perform fail fun call => (walletCalls creations loads call).program) pool events).shared := by
  induction events generalizing pool with
  | nil => exact holds
  | cons event events ih =>
    refine ih (kept.step event) ?_ fun damage later => powered damage (List.mem_cons_of_mem event later)
    cases event with
    | outage damage => exact absurd List.mem_cons_self (powered damage)
    | call i chance =>
      rcases kept.guarantee i chance with same | guarantee
      · rw [same]
        exact holds
      · exact holds.mono guarantee.longer guarantee.published

/-- Any number of creations and loads of the user wallet may run at once on one directory, in any order of their
file calls, with calls refused, processes stopped and outages of the power: the file is never written in part, at
most one creation since the last outage gives out a wallet, that wallet can be loaded, and while the power is on
the file is never written over. -/
theorem wallets_are_kept [DecidableEq ι] [DecidableEq κ] (laws : UserWalletLaws)
    (suffixes : Function.Injective fun i => (creations i).random.tempSuffix)
    (salts : Function.Injective fun i => (creations i).random.salt) {disk : Disk Text}
    (whole : disk.Whole {initial} userWalletFileName)
    (earlier later : List (PoolEvent (ι ⊕ κ) (FileChance Text) (Damage Text))) :
    let run := runFrom (Pool.step perform fail fun call => (walletCalls creations loads call).program) (Pool.start disk)
    WalletsKept creations loads initial (run (earlier ++ later)) ∧
      ((∀ damage, .outage damage ∉ later) → ∀ content,
        (run earlier).shared.read userWalletFileName = some content →
        (run (earlier ++ later)).shared.read userWalletFileName = some content) := by
  intro run
  have start : disk.Whole (walletContents creations initial) userWalletFileName :=
    whole.mono fun content same => Or.inl same
  have keeps := (walletTerms suffixes loads initial).run start fun _ => start
  obtain ⟨inv, _, running⟩ := keeps (earlier ++ later)
  have ended : ∀ i wallet, (run (earlier ++ later)).progress (.inl i) = .running (.done (.ok wallet)) → _ :=
    fun i wallet ended => running (.inl i) _ ended wallet rfl
  refine ⟨⟨inv.read, fun i wallet done => ?_, fun i j wallet wallet' done done' => ?_, fun j wallet done => ?_⟩,
    fun powered content shown => ?_⟩
  · obtain ⟨is, content, holds, sealed⟩ := ended i wallet done
    refine ⟨is, fun chances enough fine => UserWalletKeystore.load_fine holds ?_ enough fine⟩
    rw [is] at sealed ⊢
    exact UserWalletKeystore.openWallet_sealed laws sealed
  · obtain ⟨_, content, ⟨file, entry, held⟩, sealed⟩ := ended i wallet done
    obtain ⟨_, content', ⟨file', entry', held'⟩, sealed'⟩ := ended j wallet' done'
    obtain rfl := Option.some.inj (entry.symm.trans entry')
    obtain rfl := congrArg File.bytes (held.symm.trans held')
    exact salts (UserWalletKeystore.salt_eq_of_encrypt sealed sealed')
  · exact running (.inr j) _ done wallet rfl
  · obtain ⟨file, entry, bytes⟩ := Option.map_eq_some_iff.mp shown
    have synced := (keeps earlier).inv.entry file entry
    have holds : HoldsWallet content (run earlier).shared := by
      refine ⟨file, entry, ?_⟩
      rw [← bytes, ← synced]
    obtain ⟨file', entry', held⟩ := run_stays suffixes (keeps earlier) holds powered
    have same : run (earlier ++ later) =
        runFrom (Pool.step perform fail fun call => (walletCalls creations loads call).program) (run earlier) later :=
      List.foldl_append
    rw [same, Disk.read, entry', Option.map_some, held]

end Pool

end

theorem StoredUserWallet.toVec_injective : Function.Injective toVec := by
  intro first second same
  have names : ∀ stored : StoredUserWallet, stored.toVec = Json.object (Json.textMembers
      ["format", "address", "private_key_hex"] [stored.format, stored.address, stored.privateKeyHex]) :=
    fun _ => rfl
  rw [names, names] at same
  have texts := Json.object_texts_inj rfl rfl same
  cases first
  cases second
  simpa only [List.cons.injEq, and_true, mk.injEq] using texts

namespace Fixture

/-- A reader that finds what was written. -/
noncomputable scoped instance userWalletReader : UserWalletReader where
  storedFromSlice := Function.partialInv StoredUserWallet.toVec

theorem userWalletLaws : UserWalletLaws where
  envelope := keystoreLaws.envelope
  stored := Function.partialInv_left StoredUserWallet.toVec_injective
  decrypts key nonce := keystoreLaws.decrypts key nonce userWalletAad

/-- Two creations under one password, each with random values of its own. -/
def rivalCreations (second : Bool) : WalletCreation where
  random :=
    { signingKey := fixedOfNat 32 (second.toNat + 1)
      salt := fixedOfNat 16 second.toNat
      nonce := fixedOfNat 12 second.toNat
      tempSuffix := fixedOfNat 32 second.toNat }
  password := keystorePassword

def rivalLoads (_ : Unit) : Text :=
  keystorePassword

/-- The creations take turns until both are over. -/
def rivalTurns : List (PoolEvent (Bool ⊕ Unit) (FileChance Text) (Damage Text)) :=
  (List.replicate 9 [.call (.inl false) fineChance, .call (.inl true) fineChance]).flatten

/-- A load. -/
def laterTurns : List (PoolEvent (Bool ⊕ Unit) (FileChance Text) (Damage Text)) :=
  List.replicate 4 (.call (.inr ()) fineChance)

end Fixture

open Fixture in
/-- Two creations at once, and a load behind them. -/
theorem Fixture.rival_wallets_are_kept :
    let run := runFrom (Pool.step perform fail fun call => (walletCalls rivalCreations rivalLoads call).program)
      (Pool.start emptyDisk)
    WalletsKept rivalCreations rivalLoads none (run (rivalTurns ++ laterTurns)) ∧
      ∃ content, (run rivalTurns).shared.read userWalletFileName = some content ∧
        (run (rivalTurns ++ laterTurns)).shared.read userWalletFileName = some content := by
  intro run
  have suffixes : Function.Injective fun second => (rivalCreations second).random.tempSuffix := by decide
  have salts : Function.Injective fun second => (rivalCreations second).random.salt := by decide
  obtain ⟨kept, stays⟩ := @wallets_are_kept _ _ _ _ _ rivalCreations rivalLoads none _ _ userWalletLaws suffixes
    salts _ (emptyDisk_whole _) rivalTurns laterTurns
  have written : ((run rivalTurns).shared.read userWalletFileName).isSome = true := by decide +kernel
  obtain ⟨content, shown⟩ := Option.isSome_iff_exists.mp written
  refine ⟨kept, content, shown, stays (fun damage member => ?_) content shown⟩
  rw [laterTurns] at member
  cases List.eq_of_mem_replicate member

end Kybernetes
