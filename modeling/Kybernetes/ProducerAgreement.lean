import Kybernetes.Reachability

namespace Kybernetes

section

variable [Crypto]

omit [Crypto] in
/-- A write that is answered stores every chain that has a block. -/
theorem saveBlockchainTo_ok {file : ChainFile} {chain : List Block} (nonempty : chain ≠ []) :
    Storage.saveBlockchainTo (.ok ()) file chain = (.ok (), .blocks chain) := by
  unfold Storage.saveBlockchainTo
  rw [if_neg nonempty]

/-- What a produced block says about the node that produced it. -/
theorem Node.produceBlock_prepared {node node' : Node} {now : SystemTime} {answer : WriteAnswer}
    {file file' : ChainFile} {timestamp : UInt64} {wallet : Wallet} {block : Block}
    (admitted : node.Admitted)
    (run : node.produceBlock now answer file timestamp wallet = (.ok block, node', file')) :
    ∃ normals after mempool, Prepared node now timestamp wallet block normals after mempool ∧
      node' = { node with blockchain := after.1, state := after.2, mempool } := by
  unfold produceBlock at run
  split at run
  · cases run
  · rename_i blockchain mempool state ready
    obtain ⟨normals, prepared⟩ := prepareBlock_prepared admitted ready
    split at run
    · cases run
    · cases run
      exact ⟨normals, _, mempool, prepared, rfl⟩

/-- Producer and validator agree: whatever block a node produces in any run,
every node with the same ledger accepts it and ends with the same ledger. -/
theorem Process.produced_block_is_received (lawful : SignaturesVerify) (blockchain : Blockchain) (state : State)
    (consensus : Consensus) (validatorIdentity : Option Wallet) (file : ChainFile)
    (history : List (Environment × Operation)) (node node' peer : Node)
    (reached : ((Process.start (Node.new blockchain state consensus) validatorIdentity).run file history).1.node
      = node)
    (now : SystemTime) (answer : WriteAnswer) (nodeFile nodeFile' peerFile : ChainFile) (timestamp : UInt64)
    (wallet : Wallet) (block : Block)
    (produced : node.produceBlock now answer nodeFile timestamp wallet = (.ok block, node', nodeFile'))
    (sameBlockchain : peer.blockchain = node.blockchain) (sameState : peer.state = node.state)
    (sameConsensus : peer.consensus = node.consensus) :
    ∃ peer' peerFile', peer.receiveBlock now (.ok ()) peerFile block = (.ok true, peer', peerFile') ∧
      peer'.blockchain = node'.blockchain ∧ peer'.state = node'.state := by
  have admitted : node.Admitted := by
    rw [← reached]
    refine Process.run_admitted ?_ file history
    simp [Process.start, Process.node, Node.new, Node.Admitted, Mempool.new]
  obtain ⟨normals, after, mempool, prepared, rfl⟩ := Node.produceBlock_prepared admitted produced
  have accepted : peer.validateAndApplyBlock now block peer.blockchain peer.state = .ok after := by
    refine Node.validateAndApplyBlock_eq_ok.mpr
      ⟨prepared.sealed.attested lawful, by rw [prepared.timed]; exact prepared.future, normals, ?_, ?_⟩
    · rw [sameConsensus, sameBlockchain]
      exact prepared.admissible
    · rw [sameBlockchain, sameState]
      exact prepared.settled
  have nonempty : after.1.chain ≠ [] := by
    simp [(prepared.admissible.settles prepared.settled).chain]
  unfold Node.receiveBlock
  rw [accepted]
  dsimp only
  rw [saveBlockchainTo_ok nonempty]
  exact ⟨_, _, rfl, rfl, rfl⟩

end

namespace Fixture

def senderKey : FixedBytes 32 :=
  fixedOfNat 32 0x8a88e3dd7409f195fd52db2d3cba5d72ca6709bf1d94121bf3748801b40f6f5c

def senderAddress : FixedBytes 32 :=
  fixedOfNat 32 0x34750f98bd59fcfc946da45aaabe933be154a4b5094e1c4abf42866505f3c97e

def recipientAddress : FixedBytes 32 :=
  fixedOfNat 32 0x6a3803d5f059902a1c6dafbc9ba4729212f7caac08634cc3ae76b27529f03827

def validatorSigningKey : FixedBytes 32 :=
  fixedOfNat 32 0x0303030303030303030303030303030303030303030303030303030303030303

def validatorKey : FixedBytes 32 :=
  fixedOfNat 32 0xed4928c628d1c2c6eae90338905995612959273a5c63f93636c14614ac8737d1

def validatorAddress : FixedBytes 32 :=
  fixedOfNat 32 0xb62e867fa2f33afe62d5d6b1642e1621d543307846b2a57b897e710919b76709

def genesisFingerprint : FixedBytes 32 :=
  fixedOfNat 32 0xa8058a98726615210584690b23e3acb08586fc775cdf481b5f822ef1839bc923

def genesisHash : FixedBytes 32 :=
  fixedOfNat 32 0xcd5bf53fb00481798aeef82625ce208ca0ecf714716da136ccc7124de8855647

def transferId : FixedBytes 32 :=
  fixedOfNat 32 0xec830f7529f3a6a9b7d21d5503e2fb55df286498dccce3ddf2f91757c30c0c58

def transferSignature : FixedBytes 64 :=
  fixedOfNat 64 0x4b29346dfdb4045b719977c981e90357d554dd23dc3b0e17cfb1627cecb0c3db9fb03753987274e7d2672a4044094775c12e8570511d33c62e8ecda9d439d700

def rivalId : FixedBytes 32 :=
  fixedOfNat 32 0x0b9106c26e670677f33c9ff49ce69959cd3aa88fc33874b54d56e7b00da7f514

def rivalSignature : FixedBytes 64 :=
  fixedOfNat 64 0x1115964bdb995b6986da0983c9129c23380e8a93ad60616c844fd12e9e8103f7ca77bcac1acbb2cf2c018628cc8ab62003b1a8a72b911acc33f03a069f156f03

def rewardId : FixedBytes 32 :=
  fixedOfNat 32 0x3c66a0263a55b5c2f6407464d01d71f7fcfca40d879c3c81ff0576fed74ee074

def firstBlockHash : FixedBytes 32 :=
  fixedOfNat 32 0x9afce5d2452e63a6e5068e6232b153b4dafd9f34718f29beeffff3f7a0a71c98

def firstBlockSignature : FixedBytes 64 :=
  fixedOfNat 64 0xb8382be9d8bb0efa1d222a690a72e5e84a5f5759ca5a194b27438301d20f39d8344ee373eab2297ef544d65bb245a07bcbed60040798c772f5edca50f036360b

def payment (id : FixedBytes 32) (amount fee : UInt64) (signature : FixedBytes 64) : Transaction where
  id := hexEncode id.val
  «from» := hexEncode senderAddress.val
  publicKey := hexEncode senderKey.val
  «to» := hexEncode recipientAddress.val
  amount := amount
  fee := fee
  nonce := 0
  signature := some (hexEncode signature.val)
  coinbase := false
  rewardMarker := 0

def transfer : Transaction :=
  payment transferId 1000000 10 transferSignature

def rival : Transaction :=
  payment rivalId 2000000 20 rivalSignature

def reward : Transaction where
  id := hexEncode rewardId.val
  «from» := systemAddress
  publicKey := systemPublicKey
  «to» := hexEncode validatorAddress.val
  amount := 10000000
  fee := 0
  nonce := 0
  signature := some systemRewardSignature
  coinbase := true
  rewardMarker := 1

def genesis : Block where
  index := 0
  timestamp := genesisTimestamp
  previousHash := genesisPreviousHash
  hash := hexEncode genesisHash.val
  validator := genesisValidator
  validatorPublicKey := hexEncode genesisFingerprint.val
  validatorSignature := none
  transactions := []

def firstBlock : Block where
  index := 1
  timestamp := genesisTimestamp + 1
  previousHash := genesis.hash
  hash := hexEncode firstBlockHash.val
  validator := hexEncode validatorAddress.val
  validatorPublicKey := hexEncode validatorKey.val
  validatorSignature := some (hexEncode firstBlockSignature.val)
  transactions := [transfer, reward]

def configurationBytes : Bytes :=
  match Bootstrap.fingerprintData Bootstrap.canonicalGenesisConfiguration with
  | .ok data => data
  | .error _ => []

/-- What SHA-256 and Ed25519 give for three wallets with the private keys `01`,
`02` and `03` repeated, for two payments with the same nonce, for the block
that confirms the first, and for the canonical configuration and genesis. -/
def table : CryptoTable where
  digests :=
    [(senderKey.val, senderAddress), (validatorKey.val, validatorAddress), (transfer.message, transferId),
      (rival.message, rivalId), (reward.message, rewardId), (genesis.hashData, genesisHash),
      (firstBlock.hashData, firstBlockHash),
      (genesis.hash, fixedOfNat 32 0xaeef7b98879bfe234a37d97afb8df1dff8793a9c8eef9f0e8c2bf735a8e158b2),
      (configurationBytes, genesisFingerprint)]
  keys := [(validatorSigningKey, validatorKey)]
  signatures :=
    [(senderKey, transfer.message, transferSignature), (senderKey, rival.message, rivalSignature),
      (validatorKey, firstBlock.hash, firstBlockSignature)]

scoped instance crypto : Crypto :=
  table.crypto

def blockchain : Blockchain where
  chain := [genesis]
  economy := { Economy.new with totalSupply := 20000000 }

def state : State :=
  ((State.new.createAccount (hexEncode senderAddress.val) 20000000).createAccount
    (hexEncode recipientAddress.val) 0).createAccount (hexEncode validatorAddress.val) 0

def consensus : Consensus where
  validators := [{ address := hexEncode validatorAddress.val, stake := 1 }]

def node : Node :=
  Node.new blockchain state consensus

def now : SystemTime :=
  some 1754690100

def env : Environment where
  clock _ := now
  answer := .ok ()

/-- A keystore that stays closed. -/
def keystore : KeystoreAnswer :=
  fun _ _ => .ok (false, none)

/-- The node once it has admitted the first payment. -/
def pending : Node :=
  ((Process.start node none).run .missing [(env, .insertTransaction transfer)]).1.node

end Fixture

theorem eq_of_first {α β γ : Type} {x : α × β × γ} {a : α} (first : x.1 = a) : x = (a, x.2.1, x.2.2) := by
  rw [← first]

open Fixture in
/-- The payment that the node admitted is in a block that a node with the same
ledger takes over. -/
theorem Fixture.firstBlock_is_received : ∃ peer' peerFile',
    node.receiveBlock now (.ok ()) .missing firstBlock = (.ok true, peer', peerFile') ∧
      peer'.blockchain.chain = [genesis, firstBlock] := by
  have produced := eq_of_first (x := pending.produceBlock now (.ok ()) .missing (genesisTimestamp + 1)
    (Wallet.fromSigningKey validatorSigningKey)) (a := .ok firstBlock) (by decide +kernel)
  obtain ⟨peer', peerFile', received, chain, _⟩ := Process.produced_block_is_received (CryptoTable.lawful table)
    blockchain state consensus none .missing [(env, .insertTransaction transfer)] pending _ node rfl now (.ok ())
    .missing _ .missing (genesisTimestamp + 1) (Wallet.fromSigningKey validatorSigningKey) firstBlock
    produced (by decide +kernel) (by decide +kernel) (by decide +kernel)
  exact ⟨peer', peerFile', received, by rw [chain]; decide +kernel⟩

end Kybernetes
