import Kybernetes.ChainValidity
import Kybernetes.Commitment

namespace Kybernetes

/-- The blocks agree in every field but the signature of the validator. -/
def Block.Agrees (block other : Block) : Prop :=
  block = { other with validatorSignature := block.validatorSignature }

theorem Block.Agrees.refl (block : Block) : block.Agrees block :=
  rfl

section

variable [Crypto]

namespace Blockchain

omit [Crypto] in
theorem validateTransactionFieldSizes_encodable {transaction : Transaction}
    (sizes : validateTransactionFieldSizes transaction = .ok ()) :
    transaction.Encodable ∧ transaction.message.length < 2 ^ 64 := by
  have message := transaction.message_length
  by_cases coinbase : transaction.coinbase = true
  · obtain ⟨id, sender, publicKey, receiver, signature⟩ := (validateTransactionFieldSizes_coinbase coinbase).mp sizes
    have idLength := isFixedHex_length id
    have senderLength : transaction.from.length = 6 := by rw [sender]; rfl
    have keyLength : transaction.publicKey.length = 6 := by rw [publicKey]; rfl
    have receiverLength := isFixedHex_length receiver
    simp only [hashHexLength, addressHexLength] at idLength receiverLength
    refine ⟨⟨by omega, by omega, by omega, by omega, ?_⟩, by omega⟩
    intro found foundEq
    cases Option.some.inj (signature.symm.trans foundEq)
    decide
  · obtain ⟨id, sender, receiver, publicKey, signature, signed, fixed⟩ :=
      (validateTransactionFieldSizes_normal (Bool.eq_false_of_not_eq_true coinbase)).mp sizes
    have idLength := isFixedHex_length id
    have senderLength := isFixedHex_length sender
    have receiverLength := isFixedHex_length receiver
    have keyLength := isFixedHex_length publicKey
    have signatureLength := isFixedHex_length fixed
    simp only [hashHexLength, addressHexLength, publicKeyHexLength, signatureHexLength] at *
    refine ⟨⟨by omega, by omega, by omega, by omega, ?_⟩, by omega⟩
    intro found foundEq
    cases Option.some.inj (signed.symm.trans foundEq)
    omega

omit [Crypto] in
/-- The size checks fix the length of everything a block hash is taken of. -/
theorem validateBlockFieldSizes_encodable {block : Block} (sizes : validateBlockFieldSizes block = .ok ()) :
    block.Encodable := by
  by_cases index : block.index = 0
  · have shape := sizes
    simp only [validateBlockFieldSizes, bind_eq_ok, rejectIf_eq_ok, if_pos index, exists_const, not_or, ne_eq,
      not_not] at shape
    obtain ⟨_, _, previousHash, validator, publicKey, _, transactions⟩ := shape
    have keyLength := isFixedHex_length publicKey
    rw [hashHexLength] at keyLength
    refine ⟨?_, ?_, by omega, by simp [transactions], by simp [transactions]⟩
    · rw [previousHash]
      decide
    · rw [validator]
      decide
  · obtain ⟨count, _, _, previousHash, validator, publicKey, _, each⟩ :=
      (validateBlockFieldSizes_eq_ok index).mp sizes
    have previousLength := isFixedHex_length previousHash
    have validatorLength := isFixedHex_length validator
    have keyLength := isFixedHex_length publicKey
    simp only [hashHexLength, addressHexLength, publicKeyHexLength, maxTotalTransactionsPerBlock,
      maxNormalTransactionsPerBlock] at *
    exact ⟨by omega, by omega, by omega, by omega,
      fun transaction member => validateTransactionFieldSizes_encodable (each transaction member)⟩

omit [Crypto] in
theorem validateBlockFieldSizes_hash {block : Block} (sizes : validateBlockFieldSizes block = .ok ()) :
    isFixedHex block.hash hashHexLength = true := by
  simp only [validateBlockFieldSizes, bind_eq_ok, rejectIf_eq_ok, exists_const, not_not] at sizes
  exact sizes.2.1

theorem checkLinkage_previousHash {previous block : Block} (linked : checkLinkage previous block = true) :
    block.previousHash = previous.hash := by
  unfold checkLinkage at linked
  split at linked
  · cases linked
  split at linked
  · cases linked
  · rename_i same
    exact not_not.mp same

/-- A block of index zero stands only at the front: elsewhere its previous hash
would have to be both `0` and 64 digits long. -/
theorem ValidAt.index_ne {position : Nat} {previous block : Block} {seen : List Text}
    (valid : ValidAt position (some previous) seen block)
    (fixed : isFixedHex previous.hash hashHexLength = true) : block.index ≠ 0 := by
  intro zero
  have sizes := valid.sizes
  simp only [validateBlockFieldSizes, bind_eq_ok, rejectIf_eq_ok, if_pos zero, exists_const, not_or, ne_eq,
    not_not] at sizes
  have link : block.previousHash = previous.hash := checkLinkage_previousHash valid.linked
  have length := isFixedHex_length fixed
  rw [← link, sizes.2.2.1] at length
  exact absurd length (by decide)

theorem ValidAt.agrees {position position' : Nat} {previous previous' : Option Block} {seen seen' : List Text}
    {block other : Block} (valid : ValidAt position previous seen block)
    (valid' : ValidAt position' previous' seen' other) {inputs : Set Bytes} (free : CollisionFree inputs)
    (member : block.hashData ∈ inputs) (member' : other.hashData ∈ inputs) (same : block.hash = other.hash) :
    block.Agrees other := by
  have digests := same
  rw [valid.hash, valid'.hash] at digests
  have whole := Block.hashData_inj (validateBlockFieldSizes_encodable valid.sizes)
    (validateBlockFieldSizes_encodable valid'.sizes) (sha256Hex_inj free member member' digests)
  rw [same] at whole
  exact whole

end Blockchain

open Blockchain

/-- A valid chain that is not empty, taken apart at its tip. -/
theorem Blockchain.isValid_last {chain : List Block} {economy : Economy} {tip : Block}
    (valid : isValid { chain, economy } = true) (last : chain.getLast? = some tip) :
    ∃ before, chain = before ++ [tip] ∧ isValid { chain := before, economy } = true ∧
      ValidAt before.length before.getLast? (seenIds before) tip := by
  obtain ⟨before, shape⟩ := List.getLast?_eq_some_iff.mp last
  rw [shape] at valid
  obtain ⟨front, tipValid⟩ := (isValid_concat economy economy).mp valid
  exact ⟨before, shape, front, tipValid⟩

theorem Blockchain.isValid_tip_index {before : List Block} {economy : Economy} {previous tip : Block}
    (valid : isValid { chain := before, economy } = true) (last : before.getLast? = some previous)
    {position : Nat} {seen : List Text} (tipValid : ValidAt position before.getLast? seen tip) : tip.index ≠ 0 := by
  obtain ⟨_, _, _, previousValid⟩ := isValid_last valid last
  rw [last] at tipValid
  exact tipValid.index_ne (validateBlockFieldSizes_hash previousValid.sizes)

/-- The tip hash commits to the whole history: two valid chains with one tip
hash have the same length and agree, block by block, in every field but the
signature of the validator. -/
theorem Blockchain.tip_commits_to_history (economy economy' : Economy) {chain chain' : List Block}
    (free : CollisionFree (hashedData (chain ++ chain'))) (valid : isValid { chain, economy } = true)
    (valid' : isValid { chain := chain', economy := economy' } = true)
    (tips : chain.getLast?.map Block.hash = chain'.getLast?.map Block.hash) :
    List.Forall₂ Block.Agrees chain chain' := by
  induction chain using List.reverseRecOn generalizing chain' with
  | nil =>
    cases last' : chain'.getLast? with
    | none =>
      rw [List.getLast?_eq_none_iff.mp last']
      exact .nil
    | some tip' => simp [last'] at tips
  | append_singleton before tip ih =>
    cases last' : chain'.getLast? with
    | none => simp [last'] at tips
    | some tip' =>
      obtain ⟨before', rfl, front', tipValid'⟩ := isValid_last valid' last'
      obtain ⟨front, tipValid⟩ := (isValid_concat economy economy).mp valid
      rw [List.getLast?_concat, List.getLast?_concat] at tips
      have agrees : tip.Agrees tip' := by
        refine tipValid.agrees tipValid' free ?_ ?_ (Option.some.inj tips)
        · exact ⟨tip, by simp, rfl⟩
        · exact ⟨tip', by simp, rfl⟩
      have index : tip.index = tip'.index := by rw [agrees]
      have link : tip.previousHash = tip'.previousHash := by rw [agrees]
      have rest : List.Forall₂ Block.Agrees before before' := by
        refine ih (free.mono ?_) front front' ?_
        · refine hashedData_mono (List.append_subset.mpr ⟨?_, ?_⟩)
          · exact List.subset_append_of_subset_left _ (List.subset_append_left _ _)
          · exact List.subset_append_of_subset_right _ (List.subset_append_left _ _)
        -- the links to the blocks in front agree, or both chains end here
        · cases last : before.getLast? with
          | none =>
            cases last' : before'.getLast? with
            | none => rfl
            | some previous' =>
              have first : tip.index = 0 := by
                rw [tipValid.index, List.getLast?_eq_none_iff.mp last]
                rfl
              exact absurd (index.symm.trans first) (isValid_tip_index front' last' tipValid')
          | some previous =>
            have later : tip.index ≠ 0 := isValid_tip_index front last tipValid
            cases last' : before'.getLast? with
            | none =>
              refine absurd ?_ later
              rw [index, tipValid'.index, List.getLast?_eq_none_iff.mp last']
              rfl
            | some previous' =>
              have linked := tipValid.linked
              have linked' := tipValid'.linked
              rw [last] at linked
              rw [last'] at linked'
              have back : tip.previousHash = previous.hash := checkLinkage_previousHash linked
              have back' : tip'.previousHash = previous'.hash := checkLinkage_previousHash linked'
              rw [Option.map_some, Option.map_some, ← back, ← back', link]
      exact List.rel_append rest (.cons agrees .nil)

end

namespace Fixture

/-- The hex digits of a text in upper case. -/
def upperCase (text : Text) : Text :=
  text.map fun digit => if 97 ≤ digit then digit - 32 else digit

/-- The first block with another spelling of its signature. -/
def respelledBlock : Block :=
  firstBlock.withSignature (upperCase (hexEncode firstBlockSignature.val))

end Fixture

open Fixture in
/-- Two valid chains with one tip hash that differ, but only in a signature. -/
theorem Fixture.respelled_chains_agree :
    [genesis, firstBlock] ≠ [genesis, respelledBlock] ∧
      List.Forall₂ Block.Agrees [genesis, firstBlock] [genesis, respelledBlock] := by
  refine ⟨by decide +kernel, ?_⟩
  refine Blockchain.tip_commits_to_history blockchain.economy blockchain.economy ?_ (by decide +kernel)
    (by decide +kernel) (by decide +kernel)
  have data : hashedData ([genesis, firstBlock] ++ [genesis, respelledBlock]) ⊆
      {genesis.hashData, firstBlock.hashData} := by
    rintro _ ⟨b, member, rfl⟩
    simp only [List.cons_append, List.nil_append, List.mem_cons, List.not_mem_nil, or_false] at member
    rcases member with rfl | rfl | rfl | rfl
    · exact Or.inl rfl
    · exact Or.inr rfl
    · exact Or.inl rfl
    · exact Or.inr rfl
  refine CollisionFree.mono ?_ data
  have apart : Crypto.sha256 genesis.hashData ≠ Crypto.sha256 firstBlock.hashData := by decide +kernel
  rintro _ (rfl | rfl) _ (rfl | rfl) same
  · rfl
  · exact absurd same apart
  · exact absurd same.symm apart
  · rfl

end Kybernetes
