import Kybernetes.Node
import Kybernetes.Settlement

namespace Kybernetes

variable [Crypto]

/-- What `validate_transaction_base` asks of a transaction. It looks neither
at balances nor at nonces. -/
structure Transaction.Genuine (economy : Economy) (transaction : Transaction) : Prop where
  id_fixed : isFixedHex transaction.id hashHexLength = true
  from_fixed : isFixedHex transaction.from addressHexLength = true
  to_fixed : isFixedHex transaction.to addressHexLength = true
  publicKey_fixed : isFixedHex transaction.publicKey publicKeyHexLength = true
  normal : transaction.coinbase = false
  from_ne : transaction.from ≠ systemAddress
  marker : transaction.rewardMarker = 0
  id_eq : transaction.id = transaction.calculateId
  derived : Wallet.addressFromPublicKey transaction.publicKey = some transaction.from
  signed : ∃ signature, transaction.signature = some signature ∧
    isFixedHex signature signatureHexLength = true ∧
    Wallet.verify transaction.publicKey transaction.message signature = true
  amount_ne : transaction.amount ≠ 0
  fee : economy.validateFee transaction.amount transaction.fee = true

omit [Crypto] in
theorem validateTransactionFieldSizes_normal {transaction : Transaction}
    (normal : transaction.coinbase = false) :
    Blockchain.validateTransactionFieldSizes transaction = .ok () ↔
      isFixedHex transaction.id hashHexLength = true ∧ isFixedHex transaction.from addressHexLength = true ∧
      isFixedHex transaction.to addressHexLength = true ∧
      isFixedHex transaction.publicKey publicKeyHexLength = true ∧
      ∃ signature, transaction.signature = some signature ∧
        isFixedHex signature signatureHexLength = true := by
  simp only [Blockchain.validateTransactionFieldSizes, normal, bind_eq_ok, rejectIf_eq_ok, okOr_eq_ok,
    Bool.false_eq_true, if_false, not_or, not_not, exists_const, and_assoc]

omit [Crypto] in
theorem validateTransactionFieldSizes_coinbase {transaction : Transaction}
    (coinbase : transaction.coinbase = true) :
    Blockchain.validateTransactionFieldSizes transaction = .ok () ↔
      isFixedHex transaction.id hashHexLength = true ∧ transaction.from = systemAddress ∧
      transaction.publicKey = systemPublicKey ∧ isFixedHex transaction.to addressHexLength = true ∧
      transaction.signature = some systemRewardSignature := by
  simp only [Blockchain.validateTransactionFieldSizes, coinbase, bind_eq_ok, rejectIf_eq_ok, if_true, not_or,
    ne_eq, not_not, exists_const, and_assoc]

namespace Node

theorem validateTransactionBase_eq_ok {transaction : Transaction} {economy : Economy} :
    validateTransactionBase transaction economy = .ok () ↔ transaction.Genuine economy := by
  simp only [validateTransactionBase, validateTransactionFieldSizes, bind_eq_ok, rejectIf_eq_ok, okOr_eq_ok,
    not_not, exists_const, ne_eq]
  constructor
  · rintro ⟨_, sizes, normal, notSystem, marker, id, _, derived, key, rfl, signature, signed, verified, amount,
      fee⟩
    obtain ⟨idFixed, fromFixed, toFixed, keyFixed, found, foundEq, signatureFixed⟩ :=
      (validateTransactionFieldSizes_normal (Bool.eq_false_of_not_eq_true normal)).mp sizes
    cases Option.some.inj (foundEq.symm.trans signed)
    exact ⟨idFixed, fromFixed, toFixed, keyFixed, Bool.eq_false_of_not_eq_true normal, notSystem, marker, id, key,
      ⟨signature, signed, signatureFixed, verified⟩, amount, fee⟩
  · rintro ⟨idFixed, fromFixed, toFixed, keyFixed, normal, notSystem, marker, id, derived,
      ⟨signature, signed, signatureFixed, verified⟩, amount, fee⟩
    exact ⟨(), (validateTransactionFieldSizes_normal normal).mpr
      ⟨idFixed, fromFixed, toFixed, keyFixed, signature, signed, signatureFixed⟩, by simp [normal], notSystem, marker, id,
      by simp [Transaction.isSigned, signed], _, derived, rfl, signature, signed, verified, amount, fee⟩

/-- For a transaction that applies, validation inside a block comes down to
the checks of the transaction alone. -/
theorem validateTransaction_eq_ok {transaction : Transaction} {state applied : State} {economy : Economy}
    (normal : transaction.coinbase = false) (run : state.tryApplyTransaction transaction = .ok applied) :
    validateTransaction transaction state economy = .ok () ↔ transaction.Genuine economy := by
  obtain ⟨sender, totalCost, _, found, cost, affordable, nonce, _⟩ := State.tryApplyTransaction_normal normal run
  have held : state.balanceOf transaction.from = sender.balance := by simp [State.balanceOf, found]
  have used : state.nonceOf transaction.from = sender.nonce := by simp [State.nonceOf, found]
  simp only [validateTransaction, bind_eq_ok, rejectIf_eq_ok, okOr_eq_ok, exists_const, ne_eq, not_not,
    ← validateTransactionBase_eq_ok, cost, held, used, nonce]
  constructor
  · rintro ⟨_, base, _⟩
    exact base
  · intro base
    exact ⟨(), base, totalCost, rfl, UInt64.not_lt.mpr affordable, trivial⟩

theorem replayTransaction_normal {block : Block} {economy : Economy} {position : Nat}
    {replay next : BlockReplay} {transaction : Transaction} (normal : transaction.coinbase = false) :
    replayTransaction block economy position replay transaction = .ok next ↔
      transaction.Genuine economy ∧ ∃ state totals,
        replay.state.tryApplyTransaction transaction = .ok state ∧
        replay.totals.charge economy transaction = .ok totals ∧
        next = { replay with state, totals } := by
  simp only [replayTransaction, normal, bind_eq_ok, rejectIf_eq_ok, pure_eq_ok, Bool.false_eq_true, if_false,
    ne_eq, not_not, exists_const]
  constructor
  · rintro ⟨id, marker, _, valid, state, applied, totals, charged, rfl⟩
    exact ⟨(validateTransaction_eq_ok normal applied).mp valid, state, totals, applied, charged, rfl⟩
  · rintro ⟨genuine, state, totals, applied, charged, rfl⟩
    exact ⟨genuine.id_eq, genuine.marker, (), (validateTransaction_eq_ok normal applied).mpr genuine, state,
      applied, totals, charged, rfl⟩

/-- The checks of a coinbase leave exactly one transaction: the one the
producer of the block builds. -/
theorem replayTransaction_coinbase {block : Block} {economy : Economy} {position : Nat}
    {replay next : BlockReplay} {transaction : Transaction} (coinbase : transaction.coinbase = true) :
    replayTransaction block economy position replay transaction = .ok next ↔
      replay.coinbase = none ∧ position = block.transactions.length - 1 ∧
      transaction = Transaction.newCoinbase block.validator economy.blockReward block.index ∧
      next = { replay with coinbase := some transaction } := by
  simp only [replayTransaction, coinbase, bind_eq_ok, rejectIf_eq_ok, pure_eq_ok, if_true, ne_eq, not_not,
    exists_const, Bool.not_eq_true, Option.isSome_eq_false_iff, Option.isNone_iff_eq_none]
  constructor
  · rintro ⟨id, fresh, last, from', key, signature, to', fee, nonce, marker, amount, rfl⟩
    refine ⟨fresh, last, ?_, rfl⟩
    obtain ⟨txId, txFrom, txKey, txTo, txAmount, txFee, txNonce, txSignature, txCoinbase, txMarker⟩ := transaction
    simp only at coinbase from' key signature to' fee nonce marker amount
    subst coinbase from' key signature to' fee nonce marker amount
    simp only at id
    rw [id]
    rfl
  · rintro ⟨fresh, last, rfl, rfl⟩
    exact ⟨rfl, fresh, last, rfl, rfl, rfl, rfl, rfl, rfl, rfl, rfl, rfl⟩

/-- The transaction loop pulls the coinbase out of the stream. It passes on a
list of genuine transactions that apply in turn, followed by the coinbase. -/
theorem replayTransactions_eq_ok {block : Block} {economy : Economy} (position : Nat)
    (start finish : BlockReplay) {rest : List Transaction} {last : Transaction}
    (open' : start.coinbase = none) (place : position + rest.length = block.transactions.length) :
    replayTransactions block economy position start rest = .ok finish ∧ finish.coinbase = some last ↔
      ∃ normals, rest = normals ++ [last] ∧
        last = Transaction.newCoinbase block.validator economy.blockReward block.index ∧
        (∀ transaction ∈ normals, transaction.Genuine economy) ∧
        start.state.applyTransactionsAtomically normals = .ok finish.state ∧
        normals.foldlM (FeeTotals.charge economy) start.totals = .ok finish.totals ∧
        finish.coinbase = some last := by
  induction rest generalizing position start with
  | nil =>
    simp only [replayTransactions, Except.ok.injEq]
    constructor
    · rintro ⟨rfl, found⟩
      simp [open'] at found
    · rintro ⟨normals, empty, _⟩
      simp at empty
  | cons transaction rest ih =>
    simp only [replayTransactions, bind_eq_ok]
    simp only [List.length_cons] at place
    cases kind : transaction.coinbase with
    | true =>
      constructor
      · rintro ⟨⟨next, step, run⟩, found⟩
        obtain ⟨_, final, same, rfl⟩ := (replayTransaction_coinbase kind).mp step
        obtain rfl : rest = [] := List.eq_nil_of_length_eq_zero (by omega)
        cases run
        cases found
        exact ⟨[], rfl, same, by simp, rfl, rfl, rfl⟩
      · rintro ⟨normals, shape, same, genuine, applied, charged, found⟩
        cases normals with
        | nil =>
          obtain ⟨rfl, rfl⟩ : transaction = last ∧ rest = [] := by simpa using shape
          have sameState := foldlM_nil_eq_ok.mp applied
          have sameTotals := foldlM_nil_eq_ok.mp charged
          refine ⟨⟨finish, (replayTransaction_coinbase kind).mpr ⟨open', by simp at place; omega, same, ?_⟩, rfl⟩,
            found⟩
          rw [sameState, sameTotals, ← found]
        | cons first normals =>
          obtain ⟨rfl, _⟩ : transaction = first ∧ _ := by simpa using shape
          have normal := (genuine transaction (by simp)).normal
          simp [kind] at normal
    | false =>
      constructor
      · rintro ⟨⟨next, step, run⟩, found⟩
        obtain ⟨genuine, state, totals, applied, charged, rfl⟩ := (replayTransaction_normal kind).mp step
        obtain ⟨normals, rfl, same, genuines, restApplied, restCharged, _⟩ :=
          (ih _ { start with state, totals } open' (by omega)).mp ⟨run, found⟩
        refine ⟨transaction :: normals, rfl, same, ?_, foldlM_cons_eq_ok.mpr ⟨state, applied, restApplied⟩,
          foldlM_cons_eq_ok.mpr ⟨totals, charged, restCharged⟩, found⟩
        simpa using ⟨genuine, genuines⟩
      · rintro ⟨normals, shape, same, genuine, applied, charged, found⟩
        cases normals with
        | nil =>
          obtain ⟨rfl, _⟩ : transaction = last ∧ _ := by simpa using shape
          rw [same] at kind
          simp [Transaction.newCoinbase] at kind
        | cons first normals =>
          obtain ⟨rfl, rfl⟩ : transaction = first ∧ rest = normals ++ [last] := by simpa using shape
          obtain ⟨state, head, tail⟩ := foldlM_cons_eq_ok.mp applied
          obtain ⟨totals, headFees, tailFees⟩ := foldlM_cons_eq_ok.mp charged
          have step : replayTransaction block economy position start transaction
              = .ok { start with state, totals } := (replayTransaction_normal kind).mpr
            ⟨genuine transaction (by simp), state, totals, head, headFees, rfl⟩
          obtain ⟨run, _⟩ := (ih (position + 1) { start with state, totals } open' (by omega)).mpr
            ⟨normals, rfl, same, fun t member => genuine t (by simp [member]), tail, tailFees, found⟩
          exact ⟨⟨_, step, run⟩, found⟩

end Node

end Kybernetes
