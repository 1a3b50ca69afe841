import Kybernetes.HistoryCommitment
import Kybernetes.LedgerInvariant
import Kybernetes.TransactionHistory

namespace Kybernetes

open Bootstrap
open Process (canonicalCandidate)

/-- The one spelling of an address that `hex::encode` gives. -/
def LowerCase (text : Text) : Prop :=
  ∃ address : FixedBytes 32, text = hexEncode address.val

theorem LowerCase.decodes {text : Text} (lower : LowerCase text) :
    ∃ address : FixedBytes 32, hexDecode text = some address.val := by
  obtain ⟨address, rfl⟩ := lower
  exact ⟨address, hexDecode_hexEncode address.val⟩

theorem LowerCase.eq_of_hexDecode {text other : Text} (lower : LowerCase text) (lower' : LowerCase other)
    (same : hexDecode text = hexDecode other) : text = other := by
  obtain ⟨address, rfl⟩ := lower
  obtain ⟨address', rfl⟩ := lower'
  rw [hexDecode_hexEncode, hexDecode_hexEncode, Option.some.injEq] at same
  rw [same]

/-- Every account has a name in lower case or was once paid under its name. -/
def Named (ledger : Ledger) : Prop :=
  ∀ a, ledger.2.containsKey a = true → LowerCase a ∨ ∃ transaction ∈ normalsOf ledger.1.chain, transaction.to = a

section

variable [Crypto]

theorem sha256Hex_lowerCase (data : Bytes) : LowerCase (sha256Hex data) :=
  ⟨Crypto.sha256 data, rfl⟩

theorem Wallet.address_lowerCase (wallet : Wallet) : LowerCase wallet.address := by
  rw [wallet.address_eq]
  exact sha256Hex_lowerCase _

/-- A derived address is in lower case: senders and validators have no other. -/
theorem Wallet.addressFromPublicKey_lowerCase {publicKeyHex address : Text}
    (derived : Wallet.addressFromPublicKey publicKeyHex = some address) : LowerCase address := by
  obtain ⟨key, _, rfl⟩ := Wallet.addressFromPublicKey_eq_some derived
  exact sha256Hex_lowerCase _

omit [Crypto] in
theorem canonicalState_lowerCase {a : Text} (held : canonicalState.containsKey a = true) : LowerCase a := by
  have named : LowerCase genesisValidatorAAddress ∧ LowerCase genesisValidatorBAddress :=
    ⟨⟨fixedOfNat 32 0x66e0a6e68b5d5f2f01c42d4f5bcc32ff475917d29a84891a564281d06dac0194, by decide +kernel⟩,
      ⟨fixedOfNat 32 0xfe36b693330e3e48ae0ed1a78f92e38a99eb228bc3d3ab617ac70d75b28f5e78, by decide +kernel⟩⟩
  unfold State.containsKey canonicalState State.createAccount at held
  by_cases second : a = genesisValidatorBAddress
  · rw [second]
    exact named.2
  · by_cases first : a = genesisValidatorAAddress
    · rw [first]
      exact named.1
    · simp only [Finmap.lookup_insert_of_ne _ second, Finmap.lookup_insert_of_ne _ first, State.new,
        Finmap.lookup_empty, Option.isSome_none, Bool.false_eq_true] at held

/-- A block adds accounts for those it pays and for its validator. -/
theorem Named.settle {consensus : Consensus} {before after : Ledger} {block : Block} {normals : List Transaction}
    (named : Named before) (producer : block.Attested ∨ ∃ wallet, block.SealedBy wallet)
    (admissible : Admissible consensus before.1 block normals) (settled : before.settle block normals = .ok after) :
    Named after := by
  have step := admissible.settles settled
  have validator : LowerCase block.validator := by
    rcases producer with attested | ⟨wallet, sealed⟩
    · exact Wallet.addressFromPublicKey_lowerCase attested.derived
    · rw [sealed.validator]
      exact wallet.address_lowerCase
  have payments : normalsOf after.1.chain = normalsOf before.1.chain ++ normals := by
    rw [step.chain, normalsOf_append, admissible.normalsOf]
  intro a held
  by_cases paid : receivedBy a normals = []
  · by_cases paying : sentBy a normals = []
    · by_cases rewarded : a = block.validator
      · rw [rewarded]
        exact Or.inl validator
      · rw [State.containsKey, step.elsewhere a paying paid rewarded] at held
        rcases named a held with lower | ⟨transaction, member, receiver⟩
        · exact Or.inl lower
        · exact Or.inr ⟨transaction, by rw [payments]; exact List.mem_append_left _ member, receiver⟩
    · obtain ⟨transaction, member⟩ := List.exists_mem_of_ne_nil _ paying
      obtain ⟨chosen, sender⟩ := List.mem_filter.mp member
      rw [← beq_iff_eq.mp sender]
      exact Or.inl (Wallet.addressFromPublicKey_lowerCase (admissible.genuine transaction chosen).derived)
  · obtain ⟨transaction, member⟩ := List.exists_mem_of_ne_nil _ paid
    obtain ⟨chosen, receiver⟩ := List.mem_filter.mp member
    exact Or.inr ⟨transaction, by rw [payments]; exact List.mem_append_right _ chosen, beq_iff_eq.mp receiver⟩

theorem named_invariant (node : Node) (keys : ∀ a, node.genesisState.containsKey a = true → LowerCase a) :
    LedgerInvariant node Named where
  block named producer admissible settled := named.settle producer admissible settled
  canonical := fun _ held => Or.inl (canonicalState_lowerCase held)
  root := fun _ _ _ a held => Or.inl (keys a held)

/-- One account per address, in every state reached in which the payments on
the chain all name their recipients in lower case; and a payment under such a
name reaches the account that its wallet spends from. -/
theorem Process.run_one_account_per_address (blockchain : Blockchain) (state : State) (consensus : Consensus)
    (validatorIdentity : Option Wallet) (file : ChainFile) (history : List (Environment × Operation))
    (keys : ∀ a, state.containsKey a = true → LowerCase a) :
    let node := ((Process.start (Node.new blockchain state consensus) validatorIdentity).run file history).1.node
    (∀ transaction ∈ normalsOf node.blockchain.chain, LowerCase transaction.to) →
      (∀ a b, node.state.containsKey a = true → node.state.containsKey b = true → a ≠ b →
        ∃ address address' : FixedBytes 32, hexDecode a = some address.val ∧ hexDecode b = some address'.val ∧
          address ≠ address') ∧
      ∀ transaction ∈ normalsOf node.blockchain.chain, ∀ wallet : Wallet,
        hexDecode transaction.to = hexDecode wallet.address → transaction.to = wallet.address := by
  intro node lower
  have start : Named (Node.new blockchain state consensus).ledger := fun a held => Or.inl (keys a held)
  have named := (Process.run_keeps (named_invariant (Node.new blockchain state consensus) keys) start rfl
    validatorIdentity file history).node
  have each : ∀ a, node.state.containsKey a = true → LowerCase a := by
    intro a held
    rcases named a held with lowerCase | ⟨transaction, member, rfl⟩
    · exact lowerCase
    · exact lower transaction member
  refine ⟨fun a b heldA heldB other => ?_, fun transaction member wallet same =>
    (lower transaction member).eq_of_hexDecode wallet.address_lowerCase same⟩
  obtain ⟨address, decoded⟩ := (each a heldA).decodes
  obtain ⟨address', decoded'⟩ := (each b heldB).decodes
  refine ⟨address, address', decoded, decoded', fun same => other ?_⟩
  exact (each a heldA).eq_of_hexDecode (each b heldB) (by rw [decoded, decoded', same])

end

namespace Fixture

theorem state_lowerCase {a : Text} (held : state.containsKey a = true) : LowerCase a := by
  unfold State.containsKey state State.createAccount at held
  by_cases third : a = hexEncode validatorAddress.val
  · exact ⟨_, third⟩
  · by_cases second : a = hexEncode recipientAddress.val
    · exact ⟨_, second⟩
    · by_cases first : a = hexEncode senderAddress.val
      · exact ⟨_, first⟩
      · simp only [Finmap.lookup_insert_of_ne _ third, Finmap.lookup_insert_of_ne _ second,
          Finmap.lookup_insert_of_ne _ first, State.new, Finmap.lookup_empty, Option.isSome_none,
          Bool.false_eq_true] at held

end Fixture

namespace Shouted

open Fixture (payment upperCase recipientAddress firstBlock reward senderKey validatorKey)

def transferId : FixedBytes 32 :=
  fixedOfNat 32 0x6c7fef2eb626a7333a5c4a18b6b7b73f9770f0085ff533f11c992ff15484db4b

def transferSignature : FixedBytes 64 :=
  fixedOfNat 64 0xd273d238777f00e0ad8d20d31f36ddc2d1b1e63bc610623c2abe6cf90de5ff0dea0d80d61cbd34b1219137264c93bbc0cca31781bd857434093f599840229805

def blockHash : FixedBytes 32 :=
  fixedOfNat 32 0x7ad1c9dd9772484399a2e2452b71f991d0ad8ba24def7e71943efb6140c96e9c

def blockSignature : FixedBytes 64 :=
  fixedOfNat 64 0x696ec06217acfa5bd5237e8f315b110d4d9921b49c39a4c0a4ab7fbddacea84d523d4dc8fa9bf6e2fb385ee77b05f344e86c31181ebbff3e0a13d8056ab6e907

/-- The transfer with its recipient in capitals. -/
def transfer : Transaction :=
  { payment transferId 1000000 10 transferSignature with «to» := upperCase (hexEncode recipientAddress.val) }

def block : Block :=
  { firstBlock with
    hash := hexEncode blockHash.val
    validatorSignature := some (hexEncode blockSignature.val)
    transactions := [transfer, reward] }

/-- The same wallets, with the digests and the signatures of the two values above. -/
def table : CryptoTable :=
  { Fixture.table with
    digests := (transfer.message, transferId) :: (block.hashData, blockHash) :: Fixture.table.digests
    signatures := (senderKey, transfer.message, transferSignature) ::
      (validatorKey, block.hash, blockSignature) :: Fixture.table.signatures }

scoped instance crypto : Crypto :=
  table.crypto

end Shouted

open Shouted in
open Fixture (blockchain state consensus env recipientAddress upperCase) in
/-- A payment to an address in capitals is accepted and goes to a second
account for that address, from which no key can spend. -/
theorem Shouted.two_spellings_two_accounts :
    (∀ a, state.containsKey a = true → LowerCase a) ∧
      let node := ((Process.start (Node.new blockchain state consensus) none).run .missing
        [(env, .receiveBlock block)]).1.node
      let lower := hexEncode recipientAddress.val
      let upper := upperCase (hexEncode recipientAddress.val)
      node.state.containsKey lower = true ∧ node.state.containsKey upper = true ∧ lower ≠ upper ∧
        hexDecode lower = hexDecode upper ∧ node.state.balanceOf lower = 0 ∧
        node.state.balanceOf upper = 1000000 :=
  ⟨fun _ held => Fixture.state_lowerCase held, by decide +kernel⟩

open Fixture in
/-- The block with the transfer to the address as it is derived meets the condition. -/
theorem Fixture.transfer_keeps_one_account :
    let node := ((Process.start (Node.new blockchain state consensus) none).run .missing
      [(env, .receiveBlock firstBlock)]).1.node
    ∀ a b, node.state.containsKey a = true → node.state.containsKey b = true → a ≠ b →
      ∃ address address' : FixedBytes 32, hexDecode a = some address.val ∧ hexDecode b = some address'.val ∧
        address ≠ address' := by
  have payments : normalsOf ((Process.start (Node.new blockchain state consensus) none).run .missing
      [(env, .receiveBlock firstBlock)]).1.node.blockchain.chain = [transfer] := by decide +kernel
  refine (Process.run_one_account_per_address blockchain state consensus none .missing
    [(env, .receiveBlock firstBlock)] (fun _ held => state_lowerCase held) ?_).1
  rw [payments]
  intro transaction member
  rw [List.mem_singleton.mp member]
  exact ⟨recipientAddress, rfl⟩

end Kybernetes
