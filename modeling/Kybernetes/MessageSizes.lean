import Kybernetes.Network

namespace Kybernetes

namespace Json

theorem string_length_of_isFixedHex {text : Text} {length : Nat} (fixed : isFixedHex text length = true) :
    (string text).length = length + 2 := by
  have count := isFixedHex_length fixed
  simp only [isFixedHex, Bool.and_eq_true, List.all_eq_true] at fixed
  rw [string_length_of_plain fun byte member => plain_of_isHexDigit byte (fixed.2 byte member), count]

end Json

/-- A word has at most twenty digits. -/
theorem decimal_length_le_word (word : UInt64) : (decimal word.toNat).length ≤ 20 := by
  have bound := word.toNat_lt
  exact decimal_length_le (by omega) (by decide)

/-- The digits that the numbers of a transaction need. -/
def Transaction.digits (transaction : Transaction) : Nat :=
  (decimal transaction.amount.toNat).length + (decimal transaction.fee.toNat).length +
    (decimal transaction.nonce.toNat).length + (decimal transaction.rewardMarker.toNat).length

/-- The length of the JSON of a transaction with fields of the proper sizes:
everything but its numbers has one of two widths. -/
def Transaction.jsonSize (transaction : Transaction) : Nat :=
  (if transaction.coinbase then 270 else 502) + transaction.digits

/-- The length of the JSON of a block with fields of the proper sizes. -/
def Block.jsonSize (block : Block) : Nat :=
  (if block.index = 0 then 274 else 520) + (decimal block.index.toNat).length +
    (decimal block.timestamp.toNat).length +
    ((block.transactions.map Transaction.jsonSize).sum + (block.transactions.length - 1))

theorem Transaction.json_length (transaction : Transaction) :
    transaction.json.length = (Json.string transaction.id).length + (Json.string transaction.from).length +
      (Json.string transaction.publicKey).length + (Json.string transaction.to).length +
      (Json.optional transaction.signature).length + (Json.boolean transaction.coinbase).length +
      transaction.digits + 103 := by
  have names : (Json.string (Json.ascii "id")).length = 4 ∧ (Json.string (Json.ascii "from")).length = 6 ∧
      (Json.string (Json.ascii "public_key")).length = 12 ∧ (Json.string (Json.ascii "to")).length = 4 ∧
      (Json.string (Json.ascii "amount")).length = 8 ∧ (Json.string (Json.ascii "fee")).length = 5 ∧
      (Json.string (Json.ascii "nonce")).length = 7 ∧ (Json.string (Json.ascii "signature")).length = 11 ∧
      (Json.string (Json.ascii "coinbase")).length = 10 ∧
      (Json.string (Json.ascii "reward_marker")).length = 15 := by
    decide +kernel
  simp only [json, Json.object_length, List.map_cons, List.map_nil, List.sum_cons, List.sum_nil, List.length_cons,
    List.length_nil, names, Json.number, digits]
  omega

theorem Transaction.json_length_of_sizes {transaction : Transaction}
    (sizes : Blockchain.validateTransactionFieldSizes transaction = .ok ()) :
    transaction.json.length = transaction.jsonSize := by
  rw [transaction.json_length]
  unfold jsonSize
  simp only [Blockchain.validateTransactionFieldSizes, bind_eq_ok, rejectIf_eq_ok, exists_const, not_not] at sizes
  obtain ⟨idFixed, sizes⟩ := sizes
  have id : (Json.string transaction.id).length = 66 := Json.string_length_of_isFixedHex idFixed
  cases coinbase : transaction.coinbase with
  | true =>
    rw [if_pos coinbase] at sizes
    simp only [bind_eq_ok, rejectIf_eq_ok, exists_const, not_or, not_not, ne_eq] at sizes
    obtain ⟨⟨sender, key⟩, toFixed, signature⟩ := sizes
    have receiver : (Json.string transaction.to).length = 66 := Json.string_length_of_isFixedHex toFixed
    have fixed : (Json.string systemAddress).length = 8 ∧ (Json.string systemPublicKey).length = 8 ∧
        (Json.optional (some systemRewardSignature)).length = 15 ∧ (Json.boolean true).length = 4 := by
      decide +kernel
    rw [sender, key, signature, id, receiver, fixed.1, fixed.2.1, fixed.2.2.1, fixed.2.2.2, if_pos rfl]
    omega
  | false =>
    rw [if_neg (by simp [coinbase])] at sizes
    simp only [bind_eq_ok, rejectIf_eq_ok, okOr_eq_ok, exists_const, not_or, not_not] at sizes
    obtain ⟨⟨fromFixed, toFixed⟩, keyFixed, signature, signed, signatureFixed⟩ := sizes
    have sender : (Json.string transaction.from).length = 66 := Json.string_length_of_isFixedHex fromFixed
    have receiver : (Json.string transaction.to).length = 66 := Json.string_length_of_isFixedHex toFixed
    have key : (Json.string transaction.publicKey).length = 66 := Json.string_length_of_isFixedHex keyFixed
    have signatureLength : (Json.optional transaction.signature).length = 130 := by
      rw [signed]
      exact Json.string_length_of_isFixedHex signatureFixed
    have outcome : (Json.boolean false).length = 5 := by decide +kernel
    rw [id, sender, receiver, key, signatureLength, outcome, if_neg (by decide)]
    omega

theorem Block.json_length (block : Block) :
    block.json.length = (Json.string block.previousHash).length + (Json.string block.hash).length +
      (Json.string block.validator).length + (Json.string block.validatorPublicKey).length +
      (Json.optional block.validatorSignature).length + (decimal block.index.toNat).length +
      (decimal block.timestamp.toNat).length + (Json.array (block.transactions.map Transaction.json)).length +
      124 := by
  have names : (Json.string (Json.ascii "index")).length = 7 ∧
      (Json.string (Json.ascii "timestamp")).length = 11 ∧
      (Json.string (Json.ascii "previous_hash")).length = 15 ∧ (Json.string (Json.ascii "hash")).length = 6 ∧
      (Json.string (Json.ascii "validator")).length = 11 ∧
      (Json.string (Json.ascii "validator_public_key")).length = 22 ∧
      (Json.string (Json.ascii "validator_signature")).length = 21 ∧
      (Json.string (Json.ascii "transactions")).length = 14 := by
    decide +kernel
  simp only [json, Json.object_length, List.map_cons, List.map_nil, List.sum_cons, List.sum_nil, List.length_cons,
    List.length_nil, names, Json.number]
  omega

/-- The JSON of a list whose items have known sizes. -/
theorem Json.array_length_of_sizes {α : Type} {items : List α} {json : α → Bytes} {size : α → Nat}
    (sizes : ∀ item ∈ items, (json item).length = size item) :
    (array (items.map json)).length = (items.map size).sum + (items.length - 1) + 2 := by
  have each : (items.map json).map List.length = items.map size := by
    rw [List.map_map]
    exact List.map_congr_left sizes
  rw [array_length, each, List.length_map]

theorem Block.json_length_of_sizes {block : Block} (sizes : Blockchain.validateBlockFieldSizes block = .ok ()) :
    block.json.length = block.jsonSize := by
  rw [block.json_length]
  unfold jsonSize
  simp only [Blockchain.validateBlockFieldSizes, bind_eq_ok, rejectIf_eq_ok, exists_const, not_not] at sizes
  obtain ⟨_, hashFixed, sizes⟩ := sizes
  have hash : (Json.string block.hash).length = 66 := Json.string_length_of_isFixedHex hashFixed
  by_cases genesis : block.index = 0
  · rw [if_pos genesis] at sizes
    simp only [rejectIf_eq_ok, not_or, not_not, ne_eq, Bool.not_eq_true, Option.isSome_eq_false_iff,
      Option.isNone_iff_eq_none] at sizes
    obtain ⟨previous, validator, keyFixed, signature, empty⟩ := sizes
    have key : (Json.string block.validatorPublicKey).length = 66 :=
      Json.string_length_of_isFixedHex (Bool.eq_true_of_not_eq_false keyFixed)
    have fixed : (Json.string genesisPreviousHash).length = 3 ∧ (Json.string genesisValidator).length = 9 ∧
        (Json.optional none).length = 4 ∧ (Json.array []).length = 2 := by
      decide +kernel
    rw [previous, validator, signature, empty, hash, key, fixed.1, fixed.2.1, fixed.2.2.1, List.map_nil,
      fixed.2.2.2, if_pos genesis, List.map_nil, List.sum_nil, List.length_nil]
    omega
  · rw [if_neg genesis] at sizes
    simp only [bind_eq_ok, rejectIf_eq_ok, okOr_eq_ok, exists_const, not_not, forM_eq_ok] at sizes
    obtain ⟨_, previousFixed, validatorFixed, keyFixed, signature, signed, signatureFixed, each⟩ := sizes
    have previous : (Json.string block.previousHash).length = 66 := Json.string_length_of_isFixedHex previousFixed
    have validator : (Json.string block.validator).length = 66 := Json.string_length_of_isFixedHex validatorFixed
    have key : (Json.string block.validatorPublicKey).length = 66 := Json.string_length_of_isFixedHex keyFixed
    have signatureLength : (Json.optional block.validatorSignature).length = 130 := by
      rw [signed]
      exact Json.string_length_of_isFixedHex signatureFixed
    have transactions : (Json.array (block.transactions.map Transaction.json)).length =
        (block.transactions.map Transaction.jsonSize).sum + (block.transactions.length - 1) + 2 :=
      Json.array_length_of_sizes fun transaction member => Transaction.json_length_of_sizes (each transaction member)
    rw [hash, previous, validator, key, signatureLength, transactions, if_neg genesis]
    omega

namespace NetworkMessage

theorem chainChunkResponse_length {startIndex totalBlocks : UInt64} {blocks : List Block}
    (sizes : ∀ block ∈ blocks, Blockchain.validateBlockFieldSizes block = .ok ()) :
    (chainChunkResponse startIndex totalBlocks blocks).json.length =
      (decimal startIndex.toNat).length + (decimal totalBlocks.toNat).length +
        ((blocks.map Block.jsonSize).sum + (blocks.length - 1)) + 67 := by
  have array : (Json.array (blocks.map Block.json)).length =
      (blocks.map Block.jsonSize).sum + (blocks.length - 1) + 2 :=
    Json.array_length_of_sizes fun block member => Block.json_length_of_sizes (sizes block member)
  have names : (Json.string (Json.ascii "ChainChunkResponse")).length = 20 ∧
      (Json.string (Json.ascii "start_index")).length = 13 ∧
      (Json.string (Json.ascii "total_blocks")).length = 14 ∧
      (Json.string (Json.ascii "blocks")).length = 8 := by
    decide +kernel
  simp only [json, Json.variant, Json.object_length, List.map_cons, List.map_nil, List.sum_cons, List.sum_nil,
    List.length_cons, List.length_nil, names, Json.number, array]
  omega

theorem transactionAck_length_le {transactionId : Text} (fixed : isFixedHex transactionId hashHexLength = true)
    (accepted : Bool) {reason : Option Text} (short : (Json.optional reason).length ≤ 30) :
    (transactionAck transactionId accepted reason).json.length ≤ 200 := by
  have id : (Json.string transactionId).length = 66 := Json.string_length_of_isFixedHex fixed
  have outcome : (Json.boolean accepted).length ≤ 5 := by cases accepted <;> decide +kernel
  have names : (Json.string (Json.ascii "TransactionAck")).length = 16 ∧
      (Json.string (Json.ascii "transaction_id")).length = 16 ∧
      (Json.string (Json.ascii "accepted")).length = 10 ∧ (Json.string (Json.ascii "reason")).length = 8 := by
    decide +kernel
  simp only [json, Json.variant, Json.object_length, List.map_cons, List.map_nil, List.sum_cons, List.sum_nil,
    List.length_cons, List.length_nil, names]
  omega

theorem accountStateResponse_length_le {address tipHash : Text}
    (addressFixed : isFixedHex address addressHexLength = true)
    (tipFixed : isFixedHex tipHash hashHexLength = true) (balance nonce tipIndex : UInt64) :
    (accountStateResponse address balance nonce tipIndex tipHash).json.length ≤ 400 := by
  have account : (Json.string address).length = 66 := Json.string_length_of_isFixedHex addressFixed
  have tip : (Json.string tipHash).length = 66 := Json.string_length_of_isFixedHex tipFixed
  have names : (Json.string (Json.ascii "AccountStateResponse")).length = 22 ∧
      (Json.string (Json.ascii "address")).length = 9 ∧ (Json.string (Json.ascii "balance")).length = 9 ∧
      (Json.string (Json.ascii "nonce")).length = 7 ∧ (Json.string (Json.ascii "tip_index")).length = 11 ∧
      (Json.string (Json.ascii "tip_hash")).length = 10 := by
    decide +kernel
  have first := decimal_length_le_word balance
  have second := decimal_length_le_word nonce
  have third := decimal_length_le_word tipIndex
  simp only [json, Json.variant, Json.object_length, List.map_cons, List.map_nil, List.sum_cons, List.sum_nil,
    List.length_cons, List.length_nil, names, Json.number]
  omega

end NetworkMessage

end Kybernetes
