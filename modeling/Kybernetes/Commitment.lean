import Kybernetes.Acceptance

namespace Kybernetes

theorem appendBytes_eq {buffer value : Bytes} (bound : value.length < 2 ^ 64) :
    appendBytes buffer value = buffer ++ lengthPrefixed value := by
  unfold appendBytes u64ToBeBytes lengthPrefixed
  rw [UInt64.toNat_ofNat_of_lt' bound, List.append_assoc]

theorem appendBytes_length (buffer value : Bytes) :
    (appendBytes buffer value).length = buffer.length + 8 + value.length := by
  simp [appendBytes, u64ToBeBytes, bigEndian_length, Nat.add_assoc]

theorem u64ToBeBytes_peel {n m : UInt64} {r s : Bytes} (same : u64ToBeBytes n ++ r = u64ToBeBytes m ++ s) :
    n = m ∧ r = s := by
  obtain ⟨value, rest⟩ := bigEndian_unambiguous 8 n.toNat n.toNat_lt m.toNat m.toNat_lt r s same
  exact ⟨UInt64.toNat_inj.mp value, rest⟩

theorem u128ToBeBytes_inj {n m : UInt128} (same : u128ToBeBytes n = u128ToBeBytes m) : n = m :=
  BitVec.eq_of_toNat_eq (bigEndian_inj n.isLt m.isLt same)

theorem lengthPrefixed_peel {a b r s : Bytes} (boundA : a.length < 2 ^ 64) (boundB : b.length < 2 ^ 64)
    (same : lengthPrefixed a ++ r = lengthPrefixed b ++ s) : a = b ∧ r = s :=
  lengthPrefixed_unambiguous a boundA b boundB r s same

namespace Transaction

/-- The lengths of the variable fields fit the eight bytes they are written in. -/
structure Encodable (transaction : Transaction) : Prop where
  id : transaction.id.length < 2 ^ 64
  sender : transaction.from.length < 2 ^ 64
  publicKey : transaction.publicKey.length < 2 ^ 64
  receiver : transaction.to.length < 2 ^ 64
  signature : ∀ signature, transaction.signature = some signature → signature.length < 2 ^ 64

theorem message_length (transaction : Transaction) : transaction.message.length =
    transaction.from.length + transaction.publicKey.length + transaction.to.length + 75 := by
  simp only [message, u64ToBeBytes, u128ToBeBytes, List.length_append, List.length_singleton, appendBytes_length,
    bigEndian_length]
  have header : (str "AION_TX_V1").length = 10 := by decide
  omega

/-- The message commits to every field but the id and the signature. -/
theorem message_inj {a b : Transaction} (encodableA : a.Encodable) (encodableB : b.Encodable)
    (same : a.message = b.message) :
    a = { b with id := a.id, signature := a.signature } := by
  simp only [message, appendBytes_eq encodableA.sender, appendBytes_eq encodableA.publicKey,
    appendBytes_eq encodableA.receiver, appendBytes_eq encodableB.sender, appendBytes_eq encodableB.publicKey,
    appendBytes_eq encodableB.receiver, List.append_assoc] at same
  obtain ⟨sender, same⟩ := lengthPrefixed_peel encodableA.sender encodableB.sender (List.append_cancel_left same)
  obtain ⟨publicKey, same⟩ := lengthPrefixed_peel encodableA.publicKey encodableB.publicKey same
  obtain ⟨receiver, same⟩ := lengthPrefixed_peel encodableA.receiver encodableB.receiver same
  obtain ⟨amount, same⟩ := u64ToBeBytes_peel same
  obtain ⟨fee, same⟩ := u64ToBeBytes_peel same
  obtain ⟨nonce, same⟩ := u64ToBeBytes_peel same
  obtain ⟨kind, marker⟩ := List.append_inj same rfl
  have coinbase : a.coinbase = b.coinbase := by
    cases kindA : a.coinbase <;> cases kindB : b.coinbase <;> simp [kindA, kindB] at kind ⊢
  have rewardMarker := u128ToBeBytes_inj marker
  obtain ⟨id, sender', publicKey', receiver', amount', fee', nonce', signature, coinbase', marker'⟩ := a
  simp only at sender publicKey receiver amount fee nonce coinbase rewardMarker
  simp only [sender, publicKey, receiver, amount, fee, nonce, coinbase, rewardMarker]

end Transaction

namespace Block

/-- The encoding of a transaction in the data of its block can be read back
whole, whatever follows it. -/
theorem transactionBytes_unambiguous : Unambiguous
    {transaction | transaction.Encodable ∧ transaction.message.length < 2 ^ 64} transactionBytes := by
  rintro a ⟨encodableA, messageA⟩ b ⟨encodableB, messageB⟩ r s same
  simp only [transactionBytes, appendBytes_eq encodableA.id, appendBytes_eq encodableB.id, appendBytes_eq messageA,
    appendBytes_eq messageB, List.nil_append] at same
  have signed : a.id = b.id ∧ a.message = b.message ∧ a.signature = b.signature ∧ r = s := by
    cases signatureA : a.signature with
    | none =>
      cases signatureB : b.signature with
      | none =>
        simp only [signatureA, signatureB, List.append_assoc] at same
        obtain ⟨id, same⟩ := lengthPrefixed_peel encodableA.id encodableB.id same
        obtain ⟨message, same⟩ := lengthPrefixed_peel messageA messageB same
        exact ⟨id, message, rfl, by simpa using same⟩
      | some signature =>
        simp only [signatureA, signatureB, appendBytes_eq (encodableB.signature _ signatureB),
          List.append_assoc] at same
        obtain ⟨id, same⟩ := lengthPrefixed_peel encodableA.id encodableB.id same
        obtain ⟨message, same⟩ := lengthPrefixed_peel messageA messageB same
        simp at same
    | some signature =>
      cases signatureB : b.signature with
      | none =>
        simp only [signatureA, signatureB, appendBytes_eq (encodableA.signature _ signatureA),
          List.append_assoc] at same
        obtain ⟨id, same⟩ := lengthPrefixed_peel encodableA.id encodableB.id same
        obtain ⟨message, same⟩ := lengthPrefixed_peel messageA messageB same
        simp at same
      | some signature' =>
        simp only [signatureA, signatureB, appendBytes_eq (encodableA.signature _ signatureA),
          appendBytes_eq (encodableB.signature _ signatureB), List.append_assoc] at same
        obtain ⟨id, same⟩ := lengthPrefixed_peel encodableA.id encodableB.id same
        obtain ⟨message, same⟩ := lengthPrefixed_peel messageA messageB same
        obtain ⟨signature, rest⟩ := lengthPrefixed_peel (encodableA.signature _ signatureA)
          (encodableB.signature _ signatureB) (List.append_cancel_left same)
        exact ⟨id, message, by rw [signature], rest⟩
  obtain ⟨id, message, signature, rest⟩ := signed
  have whole := Transaction.message_inj encodableA encodableB message
  rw [id, signature] at whole
  exact ⟨whole, rest⟩

structure Encodable (block : Block) : Prop where
  previousHash : block.previousHash.length < 2 ^ 64
  validator : block.validator.length < 2 ^ 64
  validatorPublicKey : block.validatorPublicKey.length < 2 ^ 64
  count : block.transactions.length < 2 ^ 64
  transactions : ∀ transaction ∈ block.transactions,
    transaction.Encodable ∧ transaction.message.length < 2 ^ 64

theorem hashData_eq (block : Block) : block.hashData =
    appendBytes (appendBytes (appendBytes (str "AION_BLOCK_V1" ++ u64ToBeBytes block.index
      ++ u64ToBeBytes block.timestamp) block.previousHash) block.validator) block.validatorPublicKey
      ++ u64ToBeBytes (UInt64.ofNat block.transactions.length) ++ block.transactions.flatMap transactionBytes := by
  simp only [hashData, List.foldl_append_eq_append, List.flatMap_def]

/-- The hashed data commits to everything in a block but its hash and the
signature of its validator. -/
theorem hashData_inj {a b : Block} (encodableA : a.Encodable) (encodableB : b.Encodable)
    (same : a.hashData = b.hashData) :
    a = { b with hash := a.hash, validatorSignature := a.validatorSignature } := by
  rw [hashData_eq, hashData_eq, appendBytes_eq encodableA.previousHash, appendBytes_eq encodableA.validator,
    appendBytes_eq encodableA.validatorPublicKey, appendBytes_eq encodableB.previousHash,
    appendBytes_eq encodableB.validator, appendBytes_eq encodableB.validatorPublicKey] at same
  simp only [List.append_assoc] at same
  obtain ⟨index, same⟩ := u64ToBeBytes_peel (List.append_cancel_left same)
  obtain ⟨timestamp, same⟩ := u64ToBeBytes_peel same
  obtain ⟨previousHash, same⟩ := lengthPrefixed_peel encodableA.previousHash encodableB.previousHash same
  obtain ⟨validator, same⟩ := lengthPrefixed_peel encodableA.validator encodableB.validator same
  obtain ⟨publicKey, same⟩ :=
    lengthPrefixed_peel encodableA.validatorPublicKey encodableB.validatorPublicKey same
  obtain ⟨count, same⟩ := u64ToBeBytes_peel same
  have length : a.transactions.length = b.transactions.length := by
    have value := congrArg UInt64.toNat count
    rwa [UInt64.toNat_ofNat_of_lt' encodableA.count, UInt64.toNat_ofNat_of_lt' encodableB.count] at value
  have transactions : a.transactions = b.transactions :=
    (transactionBytes_unambiguous.flatMap (r := []) (s := []) encodableA.transactions encodableB.transactions length
      (by simpa using same)).1
  obtain ⟨index', timestamp', previousHash', hash, validator', publicKey', signature, transactions'⟩ := a
  simp only at index timestamp previousHash validator publicKey transactions
  simp only [index, timestamp, previousHash, validator, publicKey, transactions]

/-- The index stands in front of everything of variable length. -/
theorem hashData_index {a b : Block} (same : a.hashData = b.hashData) : a.index = b.index := by
  rw [hashData_eq, hashData_eq] at same
  simp only [appendBytes, List.append_assoc] at same
  exact (u64ToBeBytes_peel (List.append_cancel_left same)).1

theorem encodable_of_length {block : Block} (bound : block.hashData.length < 2 ^ 64) : block.Encodable := by
  rw [hashData_eq] at bound
  simp only [List.length_append, appendBytes_length] at bound
  have each : ∀ transaction ∈ block.transactions,
      (transactionBytes transaction).length ≤ (block.transactions.flatMap transactionBytes).length := by
    intro transaction member
    obtain ⟨before, after, shape⟩ := List.append_of_mem member
    simp only [shape, List.flatMap_append, List.flatMap_cons, List.length_append]
    omega
  have count : block.transactions.length ≤ (block.transactions.flatMap transactionBytes).length := by
    induction block.transactions with
    | nil => simp
    | cons transaction rest ih =>
      have one : 1 ≤ (transactionBytes transaction).length := by
        simp only [transactionBytes]
        split <;> simp only [appendBytes_length, List.length_append, List.length_singleton] <;> omega
      simp only [List.flatMap_cons, List.length_append, List.length_cons]
      omega
  refine ⟨by omega, by omega, by omega, by omega, fun transaction member => ?_⟩
  have whole := each transaction member
  simp only [transactionBytes] at whole
  have message := transaction.message_length
  cases signed : transaction.signature with
  | none =>
    simp only [signed, List.length_append, appendBytes_length, List.length_nil, List.length_singleton] at whole
    exact ⟨⟨by omega, by omega, by omega, by omega, by simp [signed]⟩, by omega⟩
  | some signature =>
    simp only [signed, List.length_append, appendBytes_length, List.length_nil, List.length_singleton] at whole
    refine ⟨⟨by omega, by omega, by omega, by omega, ?_⟩, by omega⟩
    rintro _ found
    rw [signed] at found
    cases found
    omega

end Block

variable [Crypto]

theorem Transaction.newCoinbase_encodable {validator : Text} {reward index : UInt64}
    (short : validator.length ≤ 64) :
    (newCoinbase validator reward index).Encodable ∧
      (newCoinbase validator reward index).message.length < 2 ^ 64 := by
  have message := (newCoinbase validator reward index).message_length
  have id : (newCoinbase validator reward index).id.length = 64 := isFixedHex_length (isFixedHex_sha256Hex _)
  have sender : (newCoinbase validator reward index).from.length = 6 := by rfl
  have publicKey : (newCoinbase validator reward index).publicKey.length = 6 := by rfl
  have receiver : (newCoinbase validator reward index).to.length = validator.length := rfl
  refine ⟨⟨by omega, by omega, by omega, by omega, ?_⟩, by omega⟩
  rintro signature ⟨⟩
  exact (by decide : systemRewardSignature.length < 2 ^ 64)

theorem Transaction.Genuine.encodable {economy : Economy} {transaction : Transaction}
    (genuine : transaction.Genuine economy) : transaction.Encodable ∧ transaction.message.length < 2 ^ 64 := by
  have message := transaction.message_length
  have id := isFixedHex_length genuine.id_fixed
  have sender := isFixedHex_length genuine.from_fixed
  have receiver := isFixedHex_length genuine.to_fixed
  have key := isFixedHex_length genuine.publicKey_fixed
  simp only [hashHexLength, addressHexLength, publicKeyHexLength] at id sender receiver key
  refine ⟨⟨by omega, by omega, by omega, by omega, fun signature signed => ?_⟩, by omega⟩
  obtain ⟨found, foundEq, fixed, _⟩ := genuine.signed
  cases Option.some.inj (foundEq.symm.trans signed)
  have length := isFixedHex_length fixed
  simp only [signatureHexLength] at length
  omega

/-- The fields of an admissible block have the lengths the format fixes. -/
theorem Admissible.encodable {consensus : Consensus} {blockchain : Blockchain} {block : Block}
    {normals : List Transaction} (admissible : Admissible consensus blockchain block normals) :
    block.Encodable := by
  have previousHash := isFixedHex_length admissible.previousHash_fixed
  have validator := isFixedHex_length admissible.validator_fixed
  have publicKey := isFixedHex_length admissible.publicKey_fixed
  have count := admissible.count
  simp only [hashHexLength, addressHexLength, publicKeyHexLength, maxNormalTransactionsPerBlock] at *
  refine ⟨by omega, by omega, by omega, ?_, fun transaction member => ?_⟩
  · rw [admissible.transactions, List.length_append, List.length_singleton]
    omega
  rw [admissible.transactions, List.mem_append, List.mem_singleton] at member
  rcases member with member | rfl
  · exact (admissible.genuine transaction member).encodable
  · exact Transaction.newCoinbase_encodable (by omega)

/-- The data that the hashes of the blocks of a chain are taken of. -/
def hashedData (chain : List Block) : Set Bytes :=
  {data | ∃ block ∈ chain, block.hashData = data}

omit [Crypto] in
theorem hashedData_mono {chain chain' : List Block} (within : chain ⊆ chain') :
    hashedData chain ⊆ hashedData chain' := by
  rintro data ⟨b, member, rfl⟩
  exact ⟨b, within member, rfl⟩

omit [Crypto] in
theorem hashedData_subsingleton {block : Block} {chain : List Block} (same : ∀ b ∈ chain, b = block) :
    (hashedData chain).Subsingleton := by
  rintro data ⟨b, member, rfl⟩ data' ⟨b', member', rfl⟩
  rw [same b member, same b' member']

end Kybernetes
