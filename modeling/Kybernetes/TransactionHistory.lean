import Kybernetes.ChainValidity
import Kybernetes.Commitment
import Kybernetes.Machines

namespace Kybernetes

open Bootstrap

/-- The normal transactions of a list of blocks, in chain order. -/
def normalsOf (blocks : List Block) : List Transaction :=
  (blocks.flatMap Block.transactions).filter fun transaction => ¬ transaction.coinbase

theorem normalsOf_append (first second : List Block) :
    normalsOf (first ++ second) = normalsOf first ++ normalsOf second := by
  simp [normalsOf]

theorem sentBy_append (a : Text) (first second : List Transaction) :
    sentBy a (first ++ second) = sentBy a first ++ sentBy a second := by
  simp [sentBy]

theorem noncesFrom_add (first : UInt64) (m n : Nat) :
    noncesFrom first (m + n) = noncesFrom first m ++ noncesFrom (first + UInt64.ofNat m) n := by
  simp only [noncesFrom, List.range_add, List.map_append, List.map_map]
  congr 1
  refine List.map_congr_left fun i _ => ?_
  simp only [Function.comp_apply, UInt64.ofNat_add, UInt64.add_assoc]

theorem noncesFrom_zero_toNat {count : Nat} (bound : count < 2 ^ 64) :
    (noncesFrom 0 count).map UInt64.toNat = List.range count := by
  simp only [noncesFrom, List.map_map]
  refine (List.map_congr_left fun i member => ?_).trans (List.map_id _)
  have below := List.mem_range.mp member
  simp only [Function.comp_apply, UInt64.zero_add, id]
  exact UInt64.toNat_ofNat_of_lt' (Nat.lt_trans below bound)

section

variable [Crypto]

theorem Admissible.normalsOf {consensus : Consensus} {blockchain : Blockchain} {block : Block}
    {normals : List Transaction} (admissible : Admissible consensus blockchain block normals) :
    normalsOf [block] = normals := by
  have kept : normals.filter (fun transaction => ¬ transaction.coinbase) = normals :=
    List.filter_eq_self.mpr fun transaction member => by simp [(admissible.genuine transaction member).normal]
  simp only [Kybernetes.normalsOf, List.flatMap_singleton, admissible.transactions, List.filter_append, kept]
  simp [Transaction.newCoinbase]

/-- The payments of the blocks that were added to a ledger. -/
structure Records (start : Ledger) (added : List Block) (ledger : Ledger) : Prop where
  chain : ledger.1.chain = start.1.chain ++ added
  count : (normalsOf added).length ≤ maxNormalTransactionsPerBlock * added.length
  genuine : ∀ transaction ∈ normalsOf added, transaction.Genuine start.1.economy
  sequence : ∀ a, (sentBy a (normalsOf added)).map Transaction.nonce =
    noncesFrom (start.2.nonceOf a) (sentBy a (normalsOf added)).length
  nonces : ∀ a, ledger.2.nonceOf a = start.2.nonceOf a + UInt64.ofNat (sentBy a (normalsOf added)).length

theorem Records.start (start : Ledger) : Records start [] start :=
  ⟨by simp, by simp [Kybernetes.normalsOf], by simp [Kybernetes.normalsOf], fun _ => rfl,
    fun _ => (UInt64.add_zero _).symm⟩

theorem Records.block {consensus : Consensus} {start before after : Ledger} {added : List Block} {block : Block}
    {normals : List Transaction} (records : Records start added before)
    (policy : before.1.economy.policy = start.1.economy.policy)
    (admissible : Admissible consensus before.1 block normals) (settled : before.settle block normals = .ok after) :
    Records start (added ++ [block]) after := by
  have step := admissible.settles settled
  have extended : Kybernetes.normalsOf (added ++ [block]) = Kybernetes.normalsOf added ++ normals := by
    rw [normalsOf_append, admissible.normalsOf]
  refine ⟨?_, ?_, ?_, fun a => ?_, fun a => ?_⟩
  · rw [step.chain, records.chain, List.append_assoc]
  · have count := records.count
    have more := admissible.count
    rw [extended, List.length_append, List.length_append, List.length_singleton, Nat.mul_add, Nat.mul_one]
    omega
  · intro transaction member
    rw [extended] at member
    rcases List.mem_append.mp member with old | new
    · exact records.genuine transaction old
    · exact (admissible.genuine transaction new).of_policy policy.symm
  · rw [extended, sentBy_append, List.map_append, List.length_append, noncesFrom_add, records.sequence a,
      step.sequence a, records.nonces a]
  · rw [extended, sentBy_append, List.length_append, step.nonces a, records.nonces a, UInt64.ofNat_add,
      UInt64.add_assoc]

theorem Grown.records {consensus : Consensus} {good : Block → Prop} {start ledger : Ledger}
    (grown : Grown consensus good start ledger) : ∃ added, Records start added ledger := by
  induction grown with
  | start => exact ⟨[], .start start⟩
  | @block ledger after block normals before accepted admissible settled ih =>
    obtain ⟨added, records⟩ := ih
    exact ⟨added ++ [block], records.block before.policy admissible settled⟩

/-- Ids that are distinct in the start stay distinct. -/
theorem Grown.ids_nodup {consensus : Consensus} {good : Block → Prop} {start ledger : Ledger}
    (grown : Grown consensus good start ledger)
    (distinct : (start.1.transactions.map Transaction.id).Nodup) :
    (ledger.1.transactions.map Transaction.id).Nodup := by
  induction grown with
  | start => exact distinct
  | @block ledger after block normals before accepted admissible settled ih =>
    have shape : after.1.transactions = ledger.1.transactions ++ block.transactions := by
      simp [Blockchain.transactions, (admissible.settles settled).chain]
    rw [shape, List.map_append]
    refine ih.append admissible.distinct ?_
    intro id old new
    obtain ⟨transaction, member, rfl⟩ := List.mem_map.mp new
    exact admissible.fresh transaction member old

omit [Crypto] in
theorem canonicalState_nonceOf (a : Text) : canonicalState.nonceOf a = 0 := by
  unfold canonicalState State.createAccount
  rw [State.nonceOf_insert, State.nonceOf_insert]
  split
  · rfl
  · split <;> rfl

/-- The payments along a chain from the canonical genesis, where the first
block carries none. -/
theorem Descends.records {good : Block → Prop} {ledger : Ledger} (descends : Descends good ledger) :
    ∃ genesis added, Rooted canonicalGenesis genesis ∧ Records (canonicalLedger genesis) added ledger ∧
      ∀ a, (sentBy a (normalsOf added)).length ≤ 10 ^ 10 ∧
        (ledger.2.nonceOf a).toNat = (sentBy a (normalsOf added)).length := by
  have length := descends.length_le
  obtain ⟨genesis, rooted, grown⟩ := descends
  obtain ⟨added, records⟩ := grown.records
  refine ⟨genesis, added, rooted, records, fun a => ?_⟩
  have bound : (sentBy a (normalsOf added)).length ≤ 10 ^ 10 := by
    have filtered : (sentBy a (normalsOf added)).length ≤ (normalsOf added).length := List.length_filter_le _ _
    have count := records.count
    have chain := congrArg List.length records.chain
    simp only [canonicalLedger, List.length_append, List.length_singleton, maxNormalTransactionsPerBlock]
      at chain count
    omega
  refine ⟨bound, ?_⟩
  have start : (canonicalLedger genesis).2.nonceOf a = 0 := canonicalState_nonceOf a
  rw [records.nonces a, start, UInt64.zero_add]
  exact UInt64.toNat_ofNat_of_lt' (Nat.lt_of_le_of_lt bound (by decide))

omit [Crypto] in
/-- The format of a genesis block leaves little to hash. -/
theorem hashData_genesis_length {genesis : Block} (index : genesis.index = 0)
    (sizes : Blockchain.validateBlockFieldSizes genesis = .ok ()) : genesis.hashData.length < 2 ^ 64 := by
  simp only [Blockchain.validateBlockFieldSizes, bind_eq_ok, rejectIf_eq_ok, if_pos index, exists_const, not_or,
    ne_eq, not_not] at sizes
  obtain ⟨_, _, previous, validator, key, _, transactions⟩ := sizes
  have publicKey := isFixedHex_length key
  have previousHash : genesis.previousHash.length = 1 := by rw [previous]; rfl
  have producer : genesis.validator.length = 7 := by rw [validator]; rfl
  have header : (str "AION_BLOCK_V1").length = 13 := by decide
  simp only [Block.hashData_eq, List.length_append, appendBytes_length, previousHash, producer, publicKey,
    transactions, header, u64ToBeBytes, bigEndian_length, List.flatMap_nil, List.length_nil]
  decide

/-- Without collisions the first block of a chain is the canonical genesis, but
for a signature it may carry. -/
theorem Rooted.eq_canonical {genesis : Block} (rooted : Rooted canonicalGenesis genesis)
    (free : CollisionFree {canonicalGenesis.hashData, genesis.hashData}) :
    genesis = { canonicalGenesis with validatorSignature := genesis.validatorSignature } := by
  have same : genesis.hashData = canonicalGenesis.hashData :=
    sha256Hex_inj free (by simp) (by simp) (rooted.hash.symm.trans rooted.same)
  have short := hashData_genesis_length (show canonicalGenesis.index = 0 from rfl) canonicalGenesis_sizes
  have whole := Block.hashData_inj (Block.encodable_of_length (by rw [same]; exact short))
    (Block.encodable_of_length short) same
  rw [rooted.same] at whole
  exact whole

/-- No transaction is confirmed twice. On every chain a machine holds, however
it came by it, the payments of an address carry the nonces from zero on, the
ids are distinct, and every payment is signed under a key of its sender. -/
theorem Machine.run_confirms_once (file : ChainFile) (events : List MachineEvent) (process : Process)
    (running : ((Machine.idle file).run events).process = some process)
    (free : CollisionFree (hashedData (canonicalGenesis :: process.node.blockchain.chain))) (a : Text) :
    let sent := sentBy a (normalsOf process.node.blockchain.chain)
    sent.map (fun transaction => transaction.nonce.toNat) = List.range sent.length ∧
      (process.node.state.nonceOf a).toNat = sent.length ∧
      (process.node.blockchain.transactions.map Transaction.id).Nodup ∧
      ∀ transaction ∈ sent, ∃ (key : FixedBytes 32) (signature : Text),
        hexDecode transaction.publicKey = some key.val ∧ sha256Hex key.val = a ∧
        transaction.signature = some signature ∧
        Wallet.verify transaction.publicKey transaction.message signature = true := by
  intro sent
  have descends := ((Machine.run_sound file events).canonical process running).descends
  obtain ⟨genesis, added, rooted, records, nonces⟩ := descends.records
  obtain ⟨genesis', rooted', grown⟩ := descends
  have shape : process.node.blockchain.chain = genesis :: added := records.chain
  have root : genesis' = genesis := by
    obtain ⟨added', shape', _⟩ := grown.chain
    have heads : genesis' :: added' = genesis :: added := shape'.symm.trans shape
    exact (List.cons_eq_cons.mp heads).1
  have empty : genesis.transactions = [] := by
    rw [rooted.eq_canonical (free.mono ?_)]
    · rfl
    · rintro data (rfl | rfl)
      · exact ⟨canonicalGenesis, by simp, rfl⟩
      · exact ⟨genesis, by simp [shape], rfl⟩
  have payments : normalsOf process.node.blockchain.chain = normalsOf added := by
    rw [shape]
    simp [normalsOf, empty]
  have sentEq : sent = sentBy a (normalsOf added) := congrArg (sentBy a) payments
  refine ⟨?_, ?_, ?_, fun transaction member => ?_⟩
  · have sequence := congrArg (List.map UInt64.toNat) (records.sequence a)
    have start : (canonicalLedger genesis).2.nonceOf a = 0 := canonicalState_nonceOf a
    rw [start, noncesFrom_zero_toNat (Nat.lt_of_le_of_lt (nonces a).1 (by decide)), List.map_map] at sequence
    rw [sentEq]
    exact sequence
  · rw [sentEq]
    exact (nonces a).2
  · refine grown.ids_nodup ?_
    simp [canonicalLedger, Blockchain.transactions, root, empty]
  · rw [sentEq] at member
    obtain ⟨recorded, sender⟩ := List.mem_filter.mp member
    have genuine := records.genuine transaction recorded
    obtain ⟨key, decoded, address⟩ := Wallet.addressFromPublicKey_eq_some genuine.derived
    obtain ⟨signature, signed, _, verified⟩ := genuine.signed
    rw [beq_iff_eq] at sender
    exact ⟨key, signature, decoded, by rw [← address, sender], signed, verified⟩

end

open Fixture in
theorem Fixture.running : ((Machine.idle .missing).run [.initializeAt keystore env]).process =
    some (Process.start Process.canonicalCandidate none) := by
  have unlocked : keystore canonical.consensus canonical.genesisFingerprint = .ok (false, none) := rfl
  rw [show env = { clock := fun _ => now, answer := .ok () } from rfl, Machine.run_first_start keystore _ unlocked]

open Fixture in
/-- The directory of a first start meets the hypotheses. -/
theorem Fixture.first_start_confirms_once :
    let process := Process.start Process.canonicalCandidate none
    let sent := sentBy (hexEncode senderAddress.val) (normalsOf process.node.blockchain.chain)
    sent.map (fun transaction => transaction.nonce.toNat) = List.range sent.length ∧
      (process.node.state.nonceOf (hexEncode senderAddress.val)).toNat = sent.length := by
  intro process sent
  have only : ∀ b ∈ canonicalGenesis :: process.node.blockchain.chain, b = canonicalGenesis := by
    have chain : process.node.blockchain.chain = [canonicalGenesis] := rfl
    rw [chain]
    simp only [List.mem_cons, List.not_mem_nil, or_false, or_self, imp_self, implies_true]
  have free : CollisionFree (hashedData (canonicalGenesis :: process.node.blockchain.chain)) :=
    .of_subsingleton (hashedData_subsingleton only)
  obtain ⟨sequence, count, _⟩ := Machine.run_confirms_once .missing [.initializeAt keystore env] process
    Fixture.running free (hexEncode senderAddress.val)
  exact ⟨sequence, count⟩

end Kybernetes
