import Kybernetes.TransactionHistory

namespace Kybernetes

open Bootstrap

/-- Two lists that agree wherever both have an entry are comparable. -/
theorem prefix_or_prefix {α : Type} {xs ys : List α}
    (agree : ∀ (i : Nat) (x y : α), xs[i]? = some x → ys[i]? = some y → x = y) : xs <+: ys ∨ ys <+: xs := by
  rcases Nat.le_total xs.length ys.length with shorter | longer
  · refine Or.inl (List.prefix_iff_getElem?.mpr fun i bound => ?_)
    have within : i < ys.length := Nat.lt_of_lt_of_le bound shorter
    have same := agree i xs[i] ys[i] (List.getElem?_eq_getElem bound) (List.getElem?_eq_getElem within)
    rw [List.getElem?_eq_getElem within, same]
  · refine Or.inr (List.prefix_iff_getElem?.mpr fun i bound => ?_)
    have within : i < xs.length := Nat.lt_of_lt_of_le bound longer
    have same := agree i xs[i] ys[i] (List.getElem?_eq_getElem within) (List.getElem?_eq_getElem bound)
    rw [List.getElem?_eq_getElem within, same]

section

variable [Crypto]

/-- What ties a block to the one in front of it: the hash, the position and
the validator that the hash selects. -/
structure Block.Follows (consensus : Consensus) (position : Nat) (block previous : Block) : Prop where
  previousHash : block.previousHash = previous.hash
  index : block.index = UInt64.ofNat (position + 1)
  selected : (consensus.selectValidatorFromHash previous.hash).map Validator.address = some block.validator

theorem Admissible.followsTip {consensus : Consensus} {blockchain : Blockchain} {block : Block}
    {normals : List Transaction} (admissible : Admissible consensus blockchain block normals) {position : Nat}
    (length : blockchain.chain.length = position + 1) :
    ∃ tip, blockchain.chain[position]? = some tip ∧ block.Follows consensus position tip := by
  obtain ⟨tip, last, link, _⟩ := admissible.follows
  refine ⟨tip, ?_, link, by rw [admissible.index, length], ?_⟩
  · rw [List.getLast?_eq_getElem?, length] at last
    exact last
  · rw [← link]
    exact admissible.selected

/-- Every block behind the first is a good one that follows the one in front. -/
theorem Grown.follows {consensus : Consensus} {good : Block → Prop} {start ledger : Ledger}
    (grown : Grown consensus good start ledger) (single : start.1.chain.length = 1) {position : Nat} {block : Block}
    (found : ledger.1.chain[position + 1]? = some block) :
    good block ∧ ∃ previous, ledger.1.chain[position]? = some previous ∧
      block.Follows consensus position previous := by
  induction grown with
  | start =>
    rw [List.getElem?_eq_none (by omega)] at found
    cases found
  | @block before after last normals grown accepted admissible settled ih =>
    have extended : after.1.chain = before.1.chain ++ [last] := (admissible.settles settled).chain
    rw [extended] at found ⊢
    rcases Nat.lt_trichotomy (position + 1) before.1.chain.length with inner | here | beyond
    · rw [List.getElem?_append_left inner] at found
      rw [List.getElem?_append_left (by omega)]
      exact ih found
    · rw [here, List.getElem?_concat_length] at found
      cases found
      rw [List.getElem?_append_left (by omega)]
      exact ⟨accepted, admissible.followsTip here.symm⟩
    · rw [List.getElem?_eq_none (by simp; omega)] at found
      cases found

/-- The block carries a signature of its hash that verifies under the key. -/
structure Block.SignedUnder (key : FixedBytes 32) (block : Block) : Prop where
  publicKey : hexDecode block.validatorPublicKey = some key.val
  signed : ∃ signature, block.validatorSignature = some signature ∧
    Wallet.verify block.validatorPublicKey block.hash signature = true

/-- No key has signed two hashes for one index. -/
def SignedOnce (blocks : Set Block) : Prop :=
  ∀ b ∈ blocks, ∀ b' ∈ blocks, ∀ key, b.SignedUnder key → b'.SignedUnder key → b.index = b'.index →
    b.hash = b'.hash

/-- The keys of the blocks, as the bytes that are hashed to addresses. -/
def validatorKeys (blocks : Set Block) : Set Bytes :=
  {bytes | ∃ b ∈ blocks, hexDecode b.validatorPublicKey = some bytes}

theorem Block.Attested.signedUnder {block : Block} (attested : block.Attested) :
    ∃ key, block.SignedUnder key ∧ block.validator = sha256Hex key.val := by
  obtain ⟨key, decoded, address⟩ := Wallet.addressFromPublicKey_eq_some attested.derived
  exact ⟨key, ⟨decoded, attested.signed⟩, address⟩

/-- Two chains from the canonical genesis have the same hash wherever both
have a block: the hash in front selects the validator, and the validator has
signed one hash for the place. -/
theorem Descends.hashes_agree {ledger ledger' : Ledger} {blocks : Set Block}
    (descends : Descends Block.Attested ledger) (descends' : Descends Block.Attested ledger')
    (held : ∀ b ∈ ledger.1.chain, b ∈ blocks) (held' : ∀ b ∈ ledger'.1.chain, b ∈ blocks)
    (free : CollisionFree (validatorKeys blocks)) (once : SignedOnce blocks) (position : Nat) (b b' : Block)
    (found : ledger.1.chain[position]? = some b) (found' : ledger'.1.chain[position]? = some b') :
    b.hash = b'.hash := by
  induction position generalizing b b' with
  | zero =>
    rw [← List.head?_eq_getElem?] at found found'
    exact (descends.head found).same.trans (descends'.head found').same.symm
  | succ position ih =>
    obtain ⟨genesis, _, grown⟩ := descends
    obtain ⟨genesis', _, grown'⟩ := descends'
    obtain ⟨attested, previous, front, follows⟩ := grown.follows rfl found
    obtain ⟨attested', previous', front', follows'⟩ := grown'.follows rfl found'
    have previousHash := ih previous previous' front front'
    have validator : b.validator = b'.validator := by
      have selected := follows.selected
      rw [previousHash, follows'.selected] at selected
      exact (Option.some.inj selected).symm
    obtain ⟨key, signed, address⟩ := attested.signedUnder
    obtain ⟨key', signed', address'⟩ := attested'.signedUnder
    have memberB := held b (List.mem_of_getElem? found)
    have memberB' := held' b' (List.mem_of_getElem? found')
    have sameKey : key.val = key'.val := by
      rw [address, address'] at validator
      exact sha256Hex_inj free ⟨b, memberB, signed.publicKey⟩ ⟨b', memberB', signed'.publicKey⟩ validator
    rw [← Subtype.ext sameKey] at signed'
    exact once b memberB b' memberB' key signed signed' (follows.index.trans follows'.index.symm)

section World

variable {ι : Type} [DecidableEq ι]

/-- The directories and processes of a network, by the names of the nodes. -/
abbrev World (ι : Type) := ι → Machine

namespace World

/-- One node takes an event. Whatever it is handed can come from anyone, so
nothing ties it to what other nodes have sent. -/
def step (world : World ι) (event : ι × MachineEvent) : World ι :=
  Function.update world event.1 ((world event.1).step event.2)

def run (world : World ι) (events : List (ι × MachineEvent)) : World ι :=
  runFrom step world events

/-- The blocks that running nodes have on their chains. -/
def held (world : World ι) : Set Block :=
  {b | ∃ name process, (world name).process = some process ∧ b ∈ process.node.blockchain.chain}

/-- Every node of a network is sound after every run of the network. -/
theorem run_sound (lawful : SignaturesVerify) (files : ι → ChainFile) (events : List (ι × MachineEvent))
    (name : ι) : (run (fun name => Machine.idle (files name)) events name).Sound Block.Attested := by
  refine runFrom_invariant (fun world : World ι => ∀ name, (world name).Sound Block.Attested) ?_
    (fun name => .idle _ (files name)) events name
  intro world event before name
  unfold step
  by_cases own : name = event.1
  · subst own
    rw [Function.update_self]
    exact (before event.1).step (event.2.env.yields_attested lawful)
  · rw [Function.update_of_ne own]
    exact before name

/-- Fork freedom: at every moment of every run, the block hashes of one node
are a prefix of those of any other. -/
theorem run_fork_free (lawful : SignaturesVerify) (files : ι → ChainFile) (events : List (ι × MachineEvent))
    (free : CollisionFree (validatorKeys (run (fun name => Machine.idle (files name)) events).held))
    (once : SignedOnce (run (fun name => Machine.idle (files name)) events).held) (name name' : ι)
    (process process' : Process)
    (running : (run (fun name => Machine.idle (files name)) events name).process = some process)
    (running' : (run (fun name => Machine.idle (files name)) events name').process = some process') :
    let hashes := process.node.blockchain.chain.map Block.hash
    let hashes' := process'.node.blockchain.chain.map Block.hash
    hashes <+: hashes' ∨ hashes' <+: hashes := by
  have descends := ((run_sound lawful files events name).canonical process running).descends
  have descends' := ((run_sound lawful files events name').canonical process' running').descends
  refine prefix_or_prefix fun position hash hash' found found' => ?_
  rw [List.getElem?_map, Option.map_eq_some_iff] at found found'
  obtain ⟨b, place, rfl⟩ := found
  obtain ⟨b', place', rfl⟩ := found'
  let blocks := (run (fun name => Machine.idle (files name)) events).held
  have held : ∀ b ∈ process.node.blockchain.chain, b ∈ blocks :=
    fun b member => ⟨name, process, running, member⟩
  have held' : ∀ b ∈ process'.node.blockchain.chain, b ∈ blocks :=
    fun b member => ⟨name', process', running', member⟩
  exact descends.hashes_agree descends' held held' free once position b b' place place'

end World

end World

end

open Fixture in
/-- Two nodes that have just started meet the hypotheses. -/
theorem Fixture.two_starts_fork_free :
    let world := World.run (fun _ : Bool => Machine.idle .missing)
      [(false, .initializeAt keystore env), (true, .initializeAt keystore env)]
    ∃ process process', (world false).process = some process ∧ (world true).process = some process' ∧
      (process.node.blockchain.chain.map Block.hash <+: process'.node.blockchain.chain.map Block.hash ∨
        process'.node.blockchain.chain.map Block.hash <+: process.node.blockchain.chain.map Block.hash) := by
  intro world
  have each : ∀ name, (world name).process = some (Process.start Process.canonicalCandidate none) := by
    rintro (_ | _)
    · exact Fixture.running
    · exact Fixture.running
  have only : ∀ b ∈ world.held, b = canonicalGenesis := by
    rintro b ⟨name, process, running, member⟩
    cases (each name).symm.trans running
    exact List.mem_singleton.mp member
  have free : CollisionFree (validatorKeys world.held) := by
    refine .of_subsingleton ?_
    rintro key ⟨b, member, decoded⟩ key' ⟨b', member', decoded'⟩
    rw [only b member] at decoded
    rw [only b' member', decoded] at decoded'
    exact Option.some.inj decoded'
  have once : SignedOnce world.held := fun b member b' member' _ _ _ _ => by rw [only b member, only b' member']
  exact ⟨_, _, each false, each true, World.run_fork_free (CryptoTable.lawful table) (fun _ => .missing) _ free once
    false true _ _ (each false) (each true)⟩

end Kybernetes
