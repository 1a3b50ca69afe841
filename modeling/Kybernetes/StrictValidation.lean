import Kybernetes.Extension
import Kybernetes.Returns
import Kybernetes.StakeBookkeeping
import Kybernetes.StrictState

namespace Kybernetes

/-! ### Block validation with overflow checks -/

namespace Economy

/-- `mint` where overflow checks are on. -/
def strictMint (self : Economy) (amount : UInt64) : Result Economy := do
  rejectIf (¬ self.canMint amount) "Maximum supply exceeded"
  let totalSupply ← strictAdd self.totalSupply amount
  return { self with totalSupply }

/-- `burn` where overflow checks are on. -/
def strictBurn (self : Economy) (amount : UInt64) : Result Economy :=
  if amount ≤ self.totalSupply then do
    let totalSupply ← strictSub self.totalSupply amount
    return { self with totalSupply }
  else return self

end Economy

def FeeTotals.strictCredit (totals : FeeTotals) (validator : Text) (state : State) (economy : Economy) :
    Result (State × Economy) := do
  let state := if state.containsKey validator then state else state.createAccount validator 0
  let state ← state.addBalance validator totals.validator
  let state ← state.addTreasury totals.treasury
  let economy ← economy.addLiquidityReserve totals.liquidity
  let state ← state.burn totals.burn
  let economy ← economy.strictBurn totals.burn
  return (state, economy)

def Consensus.strictSelectValidatorFromHash [Crypto] (self : Consensus) (previousHash : Text) :
    Result (Option Validator) :=
  self.strictSelectValidator (u64FromBeBytes ((Crypto.sha256 previousHash).val.take 8))

namespace Node

section

variable [Crypto]

/-- The turn of the transaction loop with the two unchecked operations of `apply_transaction` and
the position of the last transaction. -/
def strictReplayTransaction (block : Block) (economy : Economy) (position : Nat) (replay : BlockReplay)
    (transaction : Transaction) : Result BlockReplay := do
  rejectIf (transaction.id ≠ transaction.calculateId) "Transaction ID inside block is invalid"
  if transaction.coinbase then
    rejectIf replay.coinbase.isSome "Block contains more than one coinbase"
    let last ← strictPred block.transactions.length
    rejectIf (position ≠ last) "Coinbase must be the last transaction"
    rejectIf (transaction.from ≠ systemAddress) "Coinbase sender must be SYSTEM"
    rejectIf (transaction.publicKey ≠ systemPublicKey) "Coinbase public key is invalid"
    rejectIf (transaction.signature ≠ some systemRewardSignature) "Coinbase signature is invalid"
    rejectIf (transaction.to ≠ block.validator) "Coinbase reward does not go to the validator address"
    rejectIf (transaction.fee ≠ 0) "Coinbase fee must be zero"
    rejectIf (transaction.nonce ≠ 0) "Coinbase nonce must be zero"
    rejectIf (transaction.rewardMarker ≠ BitVec.ofNat 128 block.index.toNat)
      "Coinbase reward marker does not match block index"
    rejectIf (transaction.amount ≠ economy.blockReward) "Coinbase reward amount is invalid"
    return { replay with coinbase := some transaction }
  else
    rejectIf (transaction.rewardMarker ≠ 0) "Normal transaction reward marker must be zero"
    validateTransaction transaction replay.state economy
    let state ← replay.state.strictTryApplyTransaction transaction
    let totals ← replay.totals.charge economy transaction
    return { replay with state, totals }

def strictReplayTransactions (block : Block) (economy : Economy) :
    Nat → BlockReplay → List Transaction → Result BlockReplay
  | _, replay, [] => .ok replay
  | position, replay, transaction :: rest => do
    let replay ← strictReplayTransaction block economy position replay transaction
    strictReplayTransactions block economy (position + 1) replay rest

/-- `validate_and_apply_block` where overflow checks are on. -/
def strictValidateAndApplyBlock (self : Node) (now : SystemTime) (block : Block) (currentBlockchain : Blockchain)
    (currentState : State) : Result (Blockchain × State) := do
  rejectIf (maxTotalTransactionsPerBlock < block.transactions.length) "Block transaction limit exceeded"
  rejectIf (¬ isFixedHex block.previousHash hashHexLength ∨ ¬ isFixedHex block.hash hashHexLength)
    "Block hash format is invalid"
  rejectIf (¬ isFixedHex block.validator addressHexLength) "Block validator address format is invalid"
  rejectIf (¬ isFixedHex block.validatorPublicKey publicKeyHexLength)
    "Block validator public key format is invalid"
  let validatorSignature ← okOr block.validatorSignature "Block validator signature is missing"
  rejectIf (¬ isFixedHex validatorSignature signatureHexLength) "Block validator signature format is invalid"
  forM block.transactions validateTransactionFieldSizes
  rejectIf (¬ block.isHashValid) "Block hash is invalid"
  let candidateBlockchain ← currentBlockchain.addReceivedBlock now block
  let selected ← self.consensus.strictSelectValidatorFromHash block.previousHash
  let expectedValidator ← okOr selected "Validator could not be selected"
  rejectIf (block.validator ≠ expectedValidator.address) "Selected validator for this block is different"
  let derivedValidatorAddress ← okOr (Wallet.addressFromPublicKey block.validatorPublicKey)
    "Validator public key is invalid"
  rejectIf (derivedValidatorAddress ≠ block.validator) "Validator address does not match the public key"
  rejectIf (¬ self.consensus.isValidatorAllowed block.validator)
    "Validator is not registered in the consensus network"
  let validatorSignature ← okOr block.validatorSignature "Validator signature is missing"
  rejectIf (¬ Wallet.verify block.validatorPublicKey block.hash validatorSignature)
    "Validator signature is invalid"
  rejectIf (block.transactions = []) "Block transaction list is empty"
  let replay ← strictReplayTransactions block currentBlockchain.economy 0
    { state := currentState, totals := FeeTotals.zero, coinbase := none } block.transactions
  let coinbase ← okOr replay.coinbase "Coinbase transaction was not found"
  let (rebuiltState, rebuiltEconomy) ← replay.totals.strictCredit block.validator replay.state
    currentBlockchain.economy
  let rebuiltEconomy ← rebuiltEconomy.strictMint coinbase.amount
  let rebuiltState ← rebuiltState.strictTryApplyTransaction coinbase
  return ({ candidateBlockchain with economy := rebuiltEconomy }, rebuiltState)

end

end Node

/-! ### The checks that guard each operation -/

namespace Economy

variable {economy : Economy} {amount : UInt64}

/-- A sum under the cap has been computed before it is added. -/
theorem strictMint_eq : economy.strictMint amount = economy.mint amount := by
  refine bind_congr_of_ok fun _ allowed => ?_
  rw [rejectIf_eq_ok, not_not, canMint] at allowed
  cases sum : checkedAdd economy.totalSupply amount with
  | none =>
    rw [sum] at allowed
    cases allowed
  | some newSupply =>
    have room : economy.totalSupply.toNat + amount.toNat < 2 ^ 64 := by
      rw [checkedAdd_eq_some.mp sum]
      exact newSupply.toNat_lt
    rw [strictAdd_of_room room]
    rfl

theorem strictBurn_eq : economy.strictBurn amount = .ok (economy.burn amount) := by
  rw [strictBurn, burn]
  by_cases enough : amount ≤ economy.totalSupply
  · rw [if_pos enough, if_pos enough, strictSub_of_le enough]
    rfl
  · rw [if_neg enough, if_neg enough]
    rfl

end Economy

theorem FeeTotals.strictCredit_eq {totals : FeeTotals} {validator : Text} {state : State} {economy : Economy} :
    totals.strictCredit validator state economy = totals.credit validator state economy := by
  refine bind_congr_of_ok fun _ _ => bind_congr_of_ok fun _ _ => bind_congr_of_ok fun _ _ =>
    bind_congr_of_ok fun _ _ => ?_
  rw [Economy.strictBurn_eq]
  rfl

namespace Node

section

variable [Crypto] {block : Block} {economy : Economy} {position : Nat} {replay next : BlockReplay}
  {transaction : Transaction}

/-- A turn of the loop raises every nonce by one at most. -/
theorem replayTransaction_nonce_le (step : replayTransaction block economy position replay transaction = .ok next)
    (a : Text) : (next.state.nonceOf a).toNat ≤ (replay.state.nonceOf a).toNat + 1 := by
  cases kind : transaction.coinbase with
  | true =>
    obtain ⟨_, _, _, rfl⟩ := (replayTransaction_coinbase kind).mp step
    exact Nat.le_succ _
  | false =>
    obtain ⟨_, state, totals, applied, _, rfl⟩ := (replayTransaction_normal kind).mp step
    have nonces := (State.normal_pays kind applied).nonces a
    change (state.nonceOf a).toNat ≤ _
    rw [nonces, UInt64.toNat_add]
    refine (Nat.mod_le _ _).trans (Nat.add_le_add_left ?_ _)
    by_cases sender : a = transaction.from
    · rw [if_pos sender]
      exact Nat.le_refl 1
    · rw [if_neg sender]
      exact Nat.zero_le 1

theorem strictReplayTransaction_eq (member : transaction ∈ block.transactions)
    (room : (replay.state.nonceOf transaction.from).toNat + 1 < 2 ^ 64) :
    strictReplayTransaction block economy position replay transaction =
      replayTransaction block economy position replay transaction := by
  rw [strictReplayTransaction, replayTransaction]
  refine bind_congr_of_ok fun _ _ => ?_
  by_cases coinbase : transaction.coinbase = true
  · rw [if_pos coinbase, if_pos coinbase, strictPred_of_pos (List.length_pos_of_mem member)]
    rfl
  · rw [if_neg coinbase, if_neg coinbase, State.strictTryApplyTransaction_eq fun _ => room]

/-- With room for every nonce the whole loop is the wrapping one. -/
theorem strictReplayTransactions_eq {rest : List Transaction}
    (members : ∀ transaction ∈ rest, transaction ∈ block.transactions)
    (room : ∀ a, (replay.state.nonceOf a).toNat + rest.length < 2 ^ 64) :
    strictReplayTransactions block economy position replay rest =
      replayTransactions block economy position replay rest := by
  induction rest generalizing position replay with
  | nil => rfl
  | cons transaction rest ih =>
    have first := room transaction.from
    rw [List.length_cons] at first
    rw [strictReplayTransactions, replayTransactions,
      strictReplayTransaction_eq (members transaction (List.mem_cons_self ..)) (by omega)]
    refine bind_congr_of_ok fun next step => ih (fun other member => members other (List.mem_cons_of_mem _ member)) ?_
    intro a
    have before := room a
    have after := replayTransaction_nonce_le step a
    rw [List.length_cons] at before
    omega

/-- The transaction that the loop sets aside is a coinbase. -/
theorem replayTransactions_coinbase {rest : List Transaction} {finish : BlockReplay} {last : Transaction}
    (before : ∀ kept, replay.coinbase = some kept → kept.coinbase = true)
    (run : replayTransactions block economy position replay rest = .ok finish)
    (found : finish.coinbase = some last) : last.coinbase = true := by
  induction rest generalizing position replay with
  | nil =>
    cases run
    exact before last found
  | cons transaction rest ih =>
    rw [replayTransactions, bind_eq_ok] at run
    obtain ⟨next, step, run⟩ := run
    refine ih (fun kept keeps => ?_) run
    cases kind : transaction.coinbase with
    | true =>
      obtain ⟨_, _, _, rfl⟩ := (replayTransaction_coinbase kind).mp step
      cases keeps
      exact kind
    | false =>
      obtain ⟨_, state, totals, _, _, rfl⟩ := (replayTransaction_normal kind).mp step
      exact before kept keeps

/-! ### Returning to the caller -/

theorem validateTransaction_returns (transaction : Transaction) (state : State) (economy : Economy) :
    Returns (validateTransaction transaction state economy) :=
  (validateTransactionBase_returns _ _).bind fun _ _ => (returns_okOr _ _).bind fun _ _ =>
    (returns_rejectIf _ _).bind fun _ _ => returns_rejectIf _ _

variable (shares : economy.liquidityFeePercent.toNat + economy.treasuryFeePercent.toNat ≤ 100)

include shares

theorem replayTransaction_returns (transaction : Transaction) :
    Returns (replayTransaction block economy position replay transaction) := by
  refine (returns_rejectIf _ _).bind fun _ _ => ?_
  by_cases coinbase : transaction.coinbase = true
  · rw [if_pos coinbase]
    refine (returns_rejectIf _ _).bind fun _ _ => (returns_rejectIf _ _).bind fun _ _ =>
      (returns_rejectIf _ _).bind fun _ _ => (returns_rejectIf _ _).bind fun _ _ =>
      (returns_rejectIf _ _).bind fun _ _ => (returns_rejectIf _ _).bind fun _ _ => ?_
    exact (returns_rejectIf _ _).bind fun _ _ => (returns_rejectIf _ _).bind fun _ _ =>
      (returns_rejectIf _ _).bind fun _ _ => (returns_rejectIf _ _).bind fun _ _ => returns_ok _
  · rw [if_neg coinbase]
    exact (returns_rejectIf _ _).bind fun _ _ => (validateTransaction_returns _ _ _).bind fun _ _ =>
      (State.tryApplyTransaction_returns _ _).bind fun _ _ =>
      (FeeTotals.charge_returns shares _ _).bind fun _ _ => returns_ok _

theorem replayTransactions_returns (rest : List Transaction) :
    Returns (replayTransactions block economy position replay rest) := by
  induction rest generalizing position replay with
  | nil => exact returns_ok replay
  | cons transaction rest ih => exact (replayTransaction_returns shares transaction).bind fun _ _ => ih

omit shares

theorem addReceivedBlock_returns (blockchain : Blockchain) (now : SystemTime) (block : Block) :
    Returns (blockchain.addReceivedBlock now block) := by
  refine (Blockchain.validateBlockFieldSizes_returns _).bind fun _ _ =>
    (Blockchain.insertIds_returns _ _).bind fun _ _ => (returns_okOr _ _).bind fun _ _ =>
    (returns_rejectIf _ _).bind fun _ _ => (returns_rejectIf _ _).bind fun _ _ => ?_
  exact (Blockchain.validateFutureTimestamp_returns _ _).bind fun _ _ => (returns_rejectIf _ _).bind fun _ _ =>
    (returns_rejectIf _ _).bind fun _ _ => returns_ok _

/-- Only the split of a fee can panic, and it does not when the percentages leave something of a
fee. -/
theorem validateAndApplyBlock_returns {blockchain : Blockchain}
    (shares : blockchain.economy.liquidityFeePercent.toNat + blockchain.economy.treasuryFeePercent.toNat ≤ 100)
    (node : Node) (now : SystemTime) (block : Block) (state : State) :
    Returns (node.validateAndApplyBlock now block blockchain state) := by
  have mint : ∀ (economy : Economy) (amount : UInt64), Returns (economy.mint amount) := fun _ _ =>
    (returns_rejectIf _ _).bind fun _ _ => returns_ok _
  -- the format of the block and its transactions
  refine (returns_rejectIf _ _).bind fun _ _ => (returns_rejectIf _ _).bind fun _ _ =>
    (returns_rejectIf _ _).bind fun _ _ => (returns_rejectIf _ _).bind fun _ _ =>
    (returns_okOr _ _).bind fun _ _ => (returns_rejectIf _ _).bind fun _ _ =>
    (returns_forM _ Blockchain.validateTransactionFieldSizes_returns).bind fun _ _ => ?_
  -- its place in the chain and its producer
  refine (returns_rejectIf _ _).bind fun _ _ => (addReceivedBlock_returns _ _ _).bind fun _ _ =>
    (returns_okOr _ _).bind fun _ _ => (returns_rejectIf _ _).bind fun _ _ => (returns_okOr _ _).bind fun _ _ =>
    (returns_rejectIf _ _).bind fun _ _ => (returns_rejectIf _ _).bind fun _ _ =>
    (returns_okOr _ _).bind fun _ _ => (returns_rejectIf _ _).bind fun _ _ => ?_
  -- its effect
  exact (returns_rejectIf _ _).bind fun _ _ => (replayTransactions_returns shares _).bind fun _ _ =>
    (returns_okOr _ _).bind fun _ _ => (FeeTotals.credit_returns _ _ _ _).bind fun _ _ =>
    (mint _ _).bind fun _ _ => (State.tryApplyTransaction_returns _ _).bind fun _ _ => returns_ok _

/-- Where stakes and nonces have room, nothing in the validation of a block wraps. -/
theorem strictValidateAndApplyBlock_eq {node : Node} {now : SystemTime} {blockchain : Blockchain} {state : State}
    (stakes : node.consensus.stakes.sum < 2 ^ 64)
    (nonces : ∀ a, (state.nonceOf a).toNat + maxTotalTransactionsPerBlock < 2 ^ 64) :
    node.strictValidateAndApplyBlock now block blockchain state =
      node.validateAndApplyBlock now block blockchain state := by
  rw [strictValidateAndApplyBlock, validateAndApplyBlock]
  refine bind_congr_of_ok fun _ few => bind_congr_of_ok fun _ _ => bind_congr_of_ok fun _ _ =>
    bind_congr_of_ok fun _ _ => bind_congr_of_ok fun _ _ => bind_congr_of_ok fun _ _ =>
    bind_congr_of_ok fun _ _ => bind_congr_of_ok fun _ _ => bind_congr_of_ok fun _ _ => ?_
  rw [rejectIf_eq_ok, Nat.not_lt] at few
  rw [Consensus.strictSelectValidatorFromHash, Consensus.strictSelectValidator_of_room stakes]
  refine bind_congr_of_ok fun _ _ => bind_congr_of_ok fun _ _ => bind_congr_of_ok fun _ _ =>
    bind_congr_of_ok fun _ _ => bind_congr_of_ok fun _ _ => bind_congr_of_ok fun _ _ =>
    bind_congr_of_ok fun _ _ => bind_congr_of_ok fun _ _ => bind_congr_of_ok fun _ _ => ?_
  rw [strictReplayTransactions_eq (fun _ member => member) fun a => ?_]
  · refine bind_congr_of_ok fun replay run => bind_congr_of_ok fun coinbase found => ?_
    rw [okOr_eq_ok] at found
    have kind := replayTransactions_coinbase (by simp) run found
    rw [FeeTotals.strictCredit_eq]
    refine bind_congr_of_ok fun credited _ => ?_
    obtain ⟨rebuiltState, rebuiltEconomy⟩ := credited
    dsimp only
    rw [Economy.strictMint_eq]
    refine bind_congr_of_ok fun _ _ => ?_
    rw [State.strictTryApplyTransaction_eq fun normal => absurd kind (by simp [normal])]
  · have room := nonces a
    dsimp only
    omega

end

end Node

section

variable [Crypto]

open Bootstrap

/-- The node of a process and the candidates of its running syncs. -/
def Process.nodes (process : Process) : List Node :=
  process.node :: process.syncTasks.map SyncTask.candidate

/-- On a ledger that grew from the canonical one validation returns, with overflow checks or without. -/
theorem Descends.validates {good : Block → Prop} {node : Node} (consensus : node.consensus = canonicalConsensus)
    (descends : Descends good node.ledger) (now : SystemTime) (block : Block) :
    let strict := node.strictValidateAndApplyBlock now block node.blockchain node.state
    strict = node.validateAndApplyBlock now block node.blockchain node.state ∧ Returns strict := by
  intro strict
  have stakes : node.consensus.stakes.sum < 2 ^ 64 := by
    rw [consensus]
    decide +kernel
  obtain ⟨_, _, _, _, sent⟩ := descends.records
  have nonces : ∀ a, (node.state.nonceOf a).toNat + maxTotalTransactionsPerBlock < 2 ^ 64 := by
    intro a
    have bound := (sent a).1
    have used : (node.state.nonceOf a).toNat = _ := (sent a).2
    rw [used]
    simp only [maxTotalTransactionsPerBlock, maxNormalTransactionsPerBlock]
    omega
  have same : strict = node.validateAndApplyBlock now block node.blockchain node.state :=
    Node.strictValidateAndApplyBlock_eq stakes nonces
  refine ⟨same, ?_⟩
  rw [same]
  refine Node.validateAndApplyBlock_returns ?_ node now block node.state
  have liquidity := congrArg Economy.liquidityFeePercent descends.policy
  have treasury := congrArg Economy.treasuryFeePercent descends.policy
  change node.blockchain.economy.liquidityFeePercent = canonicalEconomy.liquidityFeePercent at liquidity
  change node.blockchain.economy.treasuryFeePercent = canonicalEconomy.treasuryFeePercent at treasury
  rw [liquidity, treasury]
  exact canonicalEconomy_shares

/-- No block can crash a machine's node, or a candidate chain that one of its syncs builds: validation
returns, and nothing in it wraps. -/
theorem Machine.run_validates (file : ChainFile) (events : List MachineEvent) (process : Process)
    (running : ((Machine.idle file).run events).process = some process) (now : SystemTime) (block : Block) :
    ∀ node ∈ process.nodes,
      let strict := node.strictValidateAndApplyBlock now block node.blockchain node.state
      strict = node.validateAndApplyBlock now block node.blockchain node.state ∧ Returns strict := by
  intro node member
  have canonical := (Machine.run_sound file events).canonical process running
  rcases List.mem_cons.mp member with rfl | candidate
  · exact canonical.descends.validates canonical.consensus now block
  · obtain ⟨syncTask, held, rfl⟩ := List.mem_map.mp candidate
    obtain ⟨consensus, descends⟩ := canonical.candidates syncTask held
    exact descends.validates consensus now block

end

open Fixture in
/-- At the node of a first start: a block, and the same block with two coinbases. -/
theorem Fixture.first_start_validates :
    let node := Process.canonicalCandidate
    let doubled := { firstBlock with transactions := firstBlock.transactions ++ firstBlock.transactions }
    Returns (node.strictValidateAndApplyBlock now firstBlock node.blockchain node.state) ∧
      Returns (node.strictValidateAndApplyBlock now doubled node.blockchain node.state) := by
  intro node doubled
  have held : node ∈ (Process.start Process.canonicalCandidate none).nodes := List.mem_cons_self ..
  have validates := fun block => (Machine.run_validates .missing [.initializeAt keystore env] _
    Fixture.running now block node held).2
  exact ⟨validates firstBlock, validates doubled⟩

end Kybernetes
