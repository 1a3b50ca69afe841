import Kybernetes.Machines
import Kybernetes.Commitment
import Kybernetes.ProducerAgreement
import Kybernetes.Returns

namespace Kybernetes

/-- What an account must hold for a payment of the amount, and the form of the
recipient: what the wallet and the node both ask for. -/
structure Payable (economy : Economy) (balance : UInt64) (recipient : Text) (amount : UInt64) : Prop where
  recipient_fixed : isFixedHex recipient addressHexLength = true
  amount_ne : amount ≠ 0
  affordable : amount.toNat + (economy.calculateFee amount).toNat ≤ balance.toNat

/-- The cost of a payment that the balance covers, in words. -/
theorem exists_cost_iff {amount fee balance : UInt64} :
    (∃ cost, checkedAdd amount fee = some cost ∧ ¬ balance < cost) ↔
      amount.toNat + fee.toNat ≤ balance.toNat := by
  constructor
  · rintro ⟨cost, sum, affordable⟩
    rw [checkedAdd_eq_some] at sum
    rw [UInt64.lt_iff_toNat_lt] at affordable
    omega
  · intro affordable
    have bound := balance.toNat_lt
    obtain ⟨cost, sum⟩ := exists_eq_toNat (show amount.toNat + fee.toNat < 2 ^ 64 by omega)
    refine ⟨cost, checkedAdd_eq_some.mpr sum, ?_⟩
    rw [UInt64.lt_iff_toNat_lt]
    omega

theorem zero_checkedAdd (a : UInt64) : checkedAdd 0 a = some a := by
  rw [checkedAdd_eq_some, UInt64.toNat_zero, Nat.zero_add]

section

variable [Crypto]

namespace TransactionSubmission

def prepareSignedTransactionFromValues (signer : Wallet) (recipient : Text) (amountMicroKbn balance nonce : UInt64)
    (economy : Economy) : Result Transaction := do
  rejectIf (¬ isFixedHex recipient addressHexLength) "Recipient address must be 64 hex characters"
  rejectIf (amountMicroKbn = 0) "Transaction amount cannot be zero"
  let fee := economy.calculateFee amountMicroKbn
  let totalCost ← okOr (checkedAdd amountMicroKbn fee) "Transaction amount plus fee overflow"
  rejectIf (balance < totalCost) "Insufficient balance for transaction"
  let sender := signer.address
  let transaction := Transaction.new sender signer.publicKeyHex recipient amountMicroKbn fee nonce
  let transaction := transaction.withSignature (signer.sign transaction.message)
  let signature ← okOr transaction.signature "Transaction signature could not be created"
  let derivedAddress ← okOr (Wallet.addressFromPublicKey transaction.publicKey)
    "Transaction public key address could not be derived"
  rejectIf (derivedAddress ≠ transaction.from ∨ transaction.id ≠ transaction.calculateId ∨
      ¬ Wallet.verify transaction.publicKey transaction.message signature)
    "Transaction signature or identity verification failed"
  return transaction

def prepareSignedTransaction (signer : Wallet) (recipient : Text) (amountMicroKbn : UInt64) (state : State)
    (economy : Economy) : Result Transaction :=
  let sender := signer.address
  prepareSignedTransactionFromValues signer recipient amountMicroKbn (state.balanceOf sender) (state.nonceOf sender)
    economy

/-- The payment a wallet signs. -/
def payment (signer : Wallet) (recipient : Text) (amount fee nonce : UInt64) : Transaction :=
  let transaction := Transaction.new signer.address signer.publicKeyHex recipient amount fee nonce
  transaction.withSignature (signer.sign transaction.message)

variable {signer : Wallet} {recipient : Text} {amount balance nonce : UInt64} {economy : Economy}

theorem payment_genuine (lawful : SignaturesVerify) (payable : Payable economy balance recipient amount) :
    (payment signer recipient amount (economy.calculateFee amount) nonce).Genuine economy where
  id_fixed := isFixedHex_sha256Hex _
  from_fixed := signer.address_fixed
  to_fixed := payable.recipient_fixed
  publicKey_fixed := signer.publicKeyHex_fixed
  normal := rfl
  from_ne := by
    intro system
    have length := isFixedHex_length signer.address_fixed
    rw [show signer.address = systemAddress from system] at length
    exact absurd length (by decide)
  marker := rfl
  id_eq := rfl
  derived := signer.addressFromPublicKey_publicKeyHex lawful
  signed := ⟨_, rfl, signer.sign_fixed _, signer.verify_sign lawful _⟩
  amount_ne := payable.amount_ne
  fee := beq_self_eq_true _

/-- With lawful signatures the wallet refuses for the recipient, the amount or
the balance only. -/
theorem prepareSignedTransactionFromValues_eq_ok (lawful : SignaturesVerify) {transaction : Transaction} :
    prepareSignedTransactionFromValues signer recipient amount balance nonce economy = .ok transaction ↔
      Payable economy balance recipient amount ∧
        transaction = payment signer recipient amount (economy.calculateFee amount) nonce := by
  have derived := signer.addressFromPublicKey_publicKeyHex lawful
  have verified := signer.verify_sign lawful
  simp only [prepareSignedTransactionFromValues, bind_eq_ok, rejectIf_eq_ok, okOr_eq_ok, pure_eq_ok, not_not,
    exists_const]
  constructor
  · rintro ⟨recipientFixed, amount_ne, cost, sum, affordable, signature, signed, address, derives, accepted, rfl⟩
    exact ⟨⟨recipientFixed, amount_ne, exists_cost_iff.mp ⟨cost, sum, affordable⟩⟩, rfl⟩
  · rintro ⟨payable, rfl⟩
    obtain ⟨cost, sum, affordable⟩ := exists_cost_iff.mpr payable.affordable
    refine ⟨payable.recipient_fixed, payable.amount_ne, cost, sum, affordable, _, rfl, _, derived, ?_, rfl⟩
    rintro (address | id | refused)
    · exact address rfl
    · exact id rfl
    · exact refused (verified _)

end TransactionSubmission

namespace Mempool

variable {mempool : Mempool} {transaction : Transaction} {economy : Economy}

omit [Crypto] in
theorem hasValidProtocolFormat_of_fixed {signature : Text} (id : isFixedHex transaction.id hashHexLength = true)
    (sender : isFixedHex transaction.from addressHexLength = true)
    (receiver : isFixedHex transaction.to addressHexLength = true)
    (key : isFixedHex transaction.publicKey publicKeyHexLength = true)
    (signed : transaction.signature = some signature) (fixed : isFixedHex signature signatureHexLength = true) :
    hasValidProtocolFormat transaction = true := by
  simp [hasValidProtocolFormat, id, sender, receiver, key, signed, fixed]

/-- The pool checks nothing of a transaction alone that the node has not. -/
theorem acceptsAlone_of_genuine (genuine : transaction.Genuine economy) : acceptsAlone transaction = true := by
  obtain ⟨signature, signed, fixed, verified⟩ := genuine.signed
  have format := hasValidProtocolFormat_of_fixed genuine.id_fixed genuine.from_fixed genuine.to_fixed
    genuine.publicKey_fixed signed fixed
  unfold acceptsAlone
  simp [genuine.normal, genuine.from_ne, genuine.amount_ne, genuine.marker, format, ← genuine.id_eq,
    Transaction.isSigned, signed, genuine.derived, verified]

theorem addTransaction_of_absent (room : mempool.transactions.length < maxMempoolTransactions)
    (genuine : transaction.Genuine economy) (fresh : transaction.id ∉ mempool.transactions.map Transaction.id)
    (absent : ∀ existing ∈ mempool.transactions, existing.from ≠ transaction.from) :
    (mempool.addTransaction transaction).1 = true := by
  have ids : (mempool.transactions.any fun existing => existing.id == transaction.id) = false := by
    rw [List.any_eq_false]
    intro existing member same
    exact fresh (List.mem_map.mpr ⟨existing, member, beq_iff_eq.mp same⟩)
  have senders : (mempool.transactions.any fun existing =>
      existing.from == transaction.from && existing.nonce == transaction.nonce) = false := by
    rw [List.any_eq_false]
    intro existing member same
    rw [Bool.and_eq_true, beq_iff_eq] at same
    exact absent existing member same.1
  unfold addTransaction
  rw [if_neg (Nat.not_le.mpr room), acceptsAlone_of_genuine genuine, ids, senders]
  rfl

omit [Crypto] in
theorem pending_of_absent {address : Text} (absent : ∀ existing ∈ mempool.transactions, existing.from ≠ address) :
    (mempool.transactions.filter fun existing => existing.from == address) = [] := by
  rw [List.filter_eq_nil_iff]
  intro existing member same
  exact absent existing member (beq_iff_eq.mp same)

omit [Crypto] in
theorem nextNonce_of_absent {address : Text} (absent : ∀ existing ∈ mempool.transactions, existing.from ≠ address)
    (stateNonce : UInt64) : mempool.nextNonce address stateNonce = .ok stateNonce := by
  unfold nextNonce pendingForSender
  rw [pending_of_absent absent]
  rfl

omit [Crypto] in
theorem pendingCost_of_absent {address : Text}
    (absent : ∀ existing ∈ mempool.transactions, existing.from ≠ address) :
    mempool.pendingCost address = .ok 0 := by
  unfold pendingCost
  rw [pending_of_absent absent]
  rfl

end Mempool

namespace Node

/-- Admission of a sender's first transaction. -/
theorem insertTransactionIntoMempool_of_absent {node : Node} {transaction : Transaction}
    (room : node.mempool.transactions.length < maxMempoolTransactions)
    (absent : ∀ existing ∈ node.mempool.transactions, existing.from ≠ transaction.from) :
    (node.insertTransactionIntoMempool transaction).1 = .ok () ↔
      transaction.Genuine node.blockchain.economy ∧ transaction.nonce = node.state.nonceOf transaction.from ∧
        transaction.amount.toNat + transaction.fee.toNat ≤ (node.state.balanceOf transaction.from).toNat ∧
        transaction.id ∉ node.mempool.transactions.map Transaction.id := by
  have valid : validateTransactionForMempool transaction node.state node.blockchain.economy node.mempool = .ok () ↔
      transaction.Genuine node.blockchain.economy ∧ transaction.nonce = node.state.nonceOf transaction.from ∧
        transaction.amount.toNat + transaction.fee.toNat ≤ (node.state.balanceOf transaction.from).toNat := by
    simp only [validateTransactionForMempool, Mempool.nextNonce_of_absent absent,
      Mempool.pendingCost_of_absent absent, bind_eq_ok, rejectIf_eq_ok, okOr_eq_ok, Except.ok.injEq, exists_eq_left',
      zero_checkedAdd, Option.some.injEq, ← exists_cost_iff, not_not, ne_eq]
    constructor
    · rintro ⟨_, base, _, nonce, affordable⟩
      exact ⟨validateTransactionBase_eq_ok.mp base, nonce, affordable⟩
    · rintro ⟨genuine, nonce, affordable⟩
      exact ⟨(), validateTransactionBase_eq_ok.mpr genuine, (), nonce, affordable⟩
  unfold insertTransactionIntoMempool
  constructor
  · intro admitted
    cases checked : validateTransactionForMempool transaction node.state node.blockchain.economy node.mempool with
    | error fault =>
      rw [checked] at admitted
      cases admitted
    | ok _ =>
      obtain ⟨genuine, nonce, affordable⟩ := valid.mp checked
      refine ⟨genuine, nonce, affordable, ?_⟩
      rw [checked] at admitted
      cases added : node.mempool.addTransaction transaction with
      | mk accepted mempool =>
        cases accepted with
        | true => exact (addTransaction_true added).2
        | false =>
          rw [added] at admitted
          cases admitted
  · rintro ⟨genuine, nonce, affordable, fresh⟩
    have accepted := Mempool.addTransaction_of_absent room genuine fresh absent
    rw [valid.mpr ⟨genuine, nonce, affordable⟩]
    cases added : node.mempool.addTransaction transaction with
    | mk taken mempool =>
      rw [added] at accepted
      cases accepted
      rfl

/-- A state that the program can bring a node to: by calls on a node made with
`Node::new`, or by starts and operations on a data directory. -/
inductive Reached (node : Node) : Prop
  | calls (blockchain : Blockchain) (state : State) (consensus : Consensus) (validatorIdentity : Option Wallet)
      (file : ChainFile) (history : List (Environment × Operation))
      (run : ((Process.start (Node.new blockchain state consensus) validatorIdentity).run file history).1.node = node)
  | events (file : ChainFile) (events : List MachineEvent) (process : Process)
      (running : ((Machine.idle file).run events).process = some process) (current : process.node = node)

theorem Reached.admitted {node : Node} (reached : node.Reached) : node.Admitted := by
  cases reached with
  | calls blockchain state consensus validatorIdentity file history run =>
    rw [← run]
    exact Process.run_admitted (fun transaction member => absurd member List.not_mem_nil) file history
  | events file events process running current =>
    rw [← current]
    exact ((Machine.run_sound file events).canonical process running).admitted

/-- The messages of the pending transactions and of one more. -/
def messagesWith (node : Node) (transaction : Transaction) : Set Bytes :=
  {data | ∃ pending ∈ transaction :: node.mempool.transactions, pending.message = data}

/-- Equal ids are equal messages, and the message names the sender. -/
theorem Admitted.id_fresh {node : Node} (admitted : node.Admitted) {transaction : Transaction}
    (genuine : transaction.Genuine node.blockchain.economy) (free : CollisionFree (node.messagesWith transaction))
    (absent : ∀ existing ∈ node.mempool.transactions, existing.from ≠ transaction.from) :
    transaction.id ∉ node.mempool.transactions.map Transaction.id := by
  intro member
  obtain ⟨existing, pending, same⟩ := List.mem_map.mp member
  have old := admitted existing pending
  rw [old.id_eq, genuine.id_eq] at same
  have message : existing.message = transaction.message :=
    sha256Hex_inj free ⟨existing, List.mem_cons_of_mem _ pending, rfl⟩ ⟨transaction, List.mem_cons_self, rfl⟩ same
  have whole := Transaction.message_inj old.encodable.1 genuine.encodable.1 message
  have sender : existing.from = transaction.from := by rw [whole]
  exact absent existing pending sender

/-- What is admitted is in the pool afterwards, behind what was there. -/
theorem insertTransactionIntoMempool_pools {node : Node} {transaction : Transaction}
    (admitted : (node.insertTransactionIntoMempool transaction).1 = .ok ()) :
    (node.insertTransactionIntoMempool transaction).2.mempool.transactions =
      node.mempool.transactions ++ [transaction] := by
  rcases node.insertTransactionIntoMempool_cases transaction with ⟨error, refused⟩ | ⟨_, _, added⟩
  · rw [refused] at admitted
    cases admitted
  · rw [added]

/-- The node admits the transaction, which is a payment as asked for: the call returns `Ok` and has put it at
the end of the pool. -/
structure AdmitsPayment (node : Node) (signer : Wallet) (recipient : Text) (amount : UInt64)
    (transaction : Transaction) : Prop where
  sender : transaction.from = signer.address
  receiver : transaction.to = recipient
  amount : transaction.amount = amount
  admitted : (node.insertTransactionIntoMempool transaction).1 = .ok ()
  pooled : (node.insertTransactionIntoMempool transaction).2.mempool.transactions =
    node.mempool.transactions ++ [transaction]

end Node

namespace TransactionSubmission

/-- The wallet prepares a payment against the state of a node exactly when the
node admits one like it, and the node admits the one prepared. -/
theorem prepareSignedTransaction_iff_admitted (lawful : SignaturesVerify) {node : Node} (reached : node.Reached)
    (signer : Wallet) (recipient : Text) (amount : UInt64)
    (room : node.mempool.transactions.length < maxMempoolTransactions)
    (absent : ∀ existing ∈ node.mempool.transactions, existing.from ≠ signer.address)
    (free : CollisionFree (node.messagesWith (payment signer recipient amount
      (node.blockchain.economy.calculateFee amount) (node.state.nonceOf signer.address)))) :
    ((∃ transaction, prepareSignedTransaction signer recipient amount node.state node.blockchain.economy =
        .ok transaction) ↔ ∃ transaction, node.AdmitsPayment signer recipient amount transaction) ∧
      ∀ transaction, prepareSignedTransaction signer recipient amount node.state node.blockchain.economy =
        .ok transaction → node.AdmitsPayment signer recipient amount transaction := by
  have prepared : ∀ transaction, prepareSignedTransaction signer recipient amount node.state
      node.blockchain.economy = .ok transaction → node.AdmitsPayment signer recipient amount transaction := by
    intro transaction run
    obtain ⟨payable, rfl⟩ := (prepareSignedTransactionFromValues_eq_ok lawful).mp run
    have genuine : (payment signer recipient amount (node.blockchain.economy.calculateFee amount)
        (node.state.nonceOf signer.address)).Genuine node.blockchain.economy := payment_genuine lawful payable
    have fresh := reached.admitted.id_fresh genuine free absent
    have admitted := (Node.insertTransactionIntoMempool_of_absent room absent).mpr
      ⟨genuine, rfl, payable.affordable, fresh⟩
    exact ⟨rfl, rfl, rfl, admitted, Node.insertTransactionIntoMempool_pools admitted⟩
  refine ⟨⟨fun run => ?_, ?_⟩, prepared⟩
  · obtain ⟨transaction, run⟩ := run
    exact ⟨transaction, prepared transaction run⟩
  · rintro ⟨transaction, sender, rfl, rfl, admitted, _⟩
    rw [← sender] at absent
    obtain ⟨genuine, _, affordable, _⟩ := (Node.insertTransactionIntoMempool_of_absent room absent).mp admitted
    have fee : transaction.fee = node.blockchain.economy.calculateFee transaction.amount :=
      beq_iff_eq.mp genuine.fee
    rw [fee, sender] at affordable
    exact ⟨_, (prepareSignedTransactionFromValues_eq_ok lawful).mpr
      ⟨⟨genuine.to_fixed, genuine.amount_ne, affordable⟩, rfl⟩⟩

end TransactionSubmission

end

namespace Submitting

def senderSigningKey : FixedBytes 32 :=
  fixedOfNat 32 0x0101010101010101010101010101010101010101010101010101010101010101

/-- The example values, with the key pair of the sender. -/
def table : CryptoTable :=
  { Fixture.table with keys := (senderSigningKey, Fixture.senderKey) :: Fixture.table.keys }

scoped instance crypto : Crypto :=
  table.crypto

def sender : Wallet :=
  Wallet.fromSigningKey senderSigningKey

end Submitting

open TransactionSubmission
open Submitting in
open Fixture (node transfer recipientAddress blockchain state consensus) in
/-- The sender prepares the transfer, and the example node admits it: its pool was empty, and holds it then. -/
theorem Submitting.transfer_is_admitted :
    prepareSignedTransaction sender (hexEncode recipientAddress.val) 1000000 node.state node.blockchain.economy =
        .ok transfer ∧
      node.AdmitsPayment sender (hexEncode recipientAddress.val) 1000000 transfer ∧
      (node.insertTransactionIntoMempool transfer).2.mempool.transactions = [transfer] := by
  have prepared : prepareSignedTransaction sender (hexEncode recipientAddress.val) 1000000 node.state
      node.blockchain.economy = .ok transfer := by decide +kernel
  have empty : node.mempool.transactions = [] := rfl
  have reached : node.Reached := .calls blockchain state consensus none .missing [] rfl
  have free : CollisionFree (node.messagesWith (payment sender (hexEncode recipientAddress.val) 1000000
      (node.blockchain.economy.calculateFee 1000000) (node.state.nonceOf sender.address))) := by
    refine .of_subsingleton ?_
    rintro data ⟨pending, member, rfl⟩ data' ⟨pending', member', rfl⟩
    rw [empty, List.mem_singleton] at member member'
    rw [member, member']
  have agree := prepareSignedTransaction_iff_admitted (CryptoTable.lawful table) reached sender
    (hexEncode recipientAddress.val) 1000000 (by decide)
    (fun existing member => absurd member (by rw [empty]; exact List.not_mem_nil)) free
  have admits := agree.2 transfer prepared
  exact ⟨prepared, admits, by rw [admits.pooled, empty, List.nil_append]⟩

end Kybernetes
