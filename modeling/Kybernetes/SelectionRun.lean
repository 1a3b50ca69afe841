import Kybernetes.Selection
import Kybernetes.StrictState

namespace Kybernetes.Mempool

/-! ### One pass -/

/-- How a pass divides what is pending: into what it chooses and what it leaves, each in the
order in which it was pending. -/
structure Divides (before : SelectionPass) (pending : List Transaction) (after : SelectionPass)
    (chosen rejected : List Transaction) : Prop where
  valid : after.validTransactions = before.validTransactions ++ chosen
  next : after.nextPending = before.nextPending ++ rejected
  all : (chosen ++ rejected).Perm pending
  order : rejected.Sublist pending
  progress : after.progress = true ↔ before.progress = true ∨ chosen ≠ []

variable {state : State} {pass : SelectionPass} {transaction : Transaction}

theorem selectStep_divides (pass : SelectionPass) (transaction : Transaction) :
    Divides pass [transaction] (selectStep pass transaction) [transaction] [] ∨
      Divides pass [transaction] (selectStep pass transaction) [] [transaction] := by
  unfold selectStep
  split
  · exact Or.inr ⟨(List.append_nil _).symm, rfl, List.Perm.refl _, List.Sublist.refl _, by simp⟩
  · split
    · exact Or.inl ⟨rfl, (List.append_nil _).symm, List.Perm.refl _, List.nil_sublist _, by simp⟩
    · exact Or.inr ⟨(List.append_nil _).symm, rfl, List.Perm.refl _, List.Sublist.refl _, by simp⟩

theorem Divides.trans {before mid after : SelectionPass} {pending pending' chosen chosen' rejected rejected' :
    List Transaction} (first : Divides before pending mid chosen rejected)
    (second : Divides mid pending' after chosen' rejected') :
    Divides before (pending ++ pending') after (chosen ++ chosen') (rejected ++ rejected') where
  valid := by rw [second.valid, first.valid, List.append_assoc]
  next := by rw [second.next, first.next, List.append_assoc]
  all := by
    have swap : (chosen ++ chosen' ++ (rejected ++ rejected')).Perm
        (chosen ++ rejected ++ (chosen' ++ rejected')) := by
      rw [List.append_assoc, List.append_assoc, ← List.append_assoc chosen', ← List.append_assoc rejected]
      exact (List.perm_append_comm.append_right _).append_left _
    exact swap.trans (first.all.append second.all)
  order := first.order.append second.order
  progress := by
    rw [second.progress, first.progress]
    simp only [ne_eq, List.append_eq_nil_iff]
    tauto

theorem foldl_selectStep_divides (pass : SelectionPass) (pending : List Transaction) :
    ∃ chosen rejected, Divides pass pending (pending.foldl selectStep pass) chosen rejected := by
  induction pending generalizing pass with
  | nil => exact ⟨[], [], (List.append_nil _).symm, (List.append_nil _).symm, List.Perm.refl _, List.Sublist.refl _,
      by simp⟩
  | cons transaction rest ih =>
    obtain ⟨chosen, rejected, later⟩ := ih (selectStep pass transaction)
    rcases selectStep_divides pass transaction with first | first
    · exact ⟨_, _, first.trans later⟩
    · exact ⟨_, _, first.trans later⟩

theorem selectStep_full (full : maxNormalTransactionsPerBlock ≤ pass.validTransactions.length) :
    selectStep pass transaction = { pass with nextPending := pass.nextPending ++ [transaction] } := by
  rw [selectStep, if_pos full]

theorem selectStep_refused {error : String} (room : pass.validTransactions.length < maxNormalTransactionsPerBlock)
    (refused : pass.temporaryState.applyTransaction transaction = (.error (.error error), pass.temporaryState)) :
    selectStep pass transaction = { pass with nextPending := pass.nextPending ++ [transaction] } := by
  rw [selectStep, if_neg (by omega), refused]

theorem selectStep_chosen {applied : State} (room : pass.validTransactions.length < maxNormalTransactionsPerBlock)
    (chosen : pass.temporaryState.applyTransaction transaction = (.ok (), applied)) :
    (selectStep pass transaction).temporaryState = applied ∧
      (selectStep pass transaction).validTransactions = pass.validTransactions ++ [transaction] ∧
      (selectStep pass transaction).nextPending = pass.nextPending := by
  rw [selectStep, if_neg (by omega), chosen]
  exact ⟨rfl, rfl, rfl⟩

/-- A pass with room that chooses nothing has met no transaction that applies. -/
theorem foldl_selectStep_stuck (bound : pass.temporaryState.totalBalance < 2 ^ 64) {pending : List Transaction}
    (normal : ∀ transaction ∈ pending, transaction.coinbase = false)
    (room : pass.validTransactions.length < maxNormalTransactionsPerBlock)
    (none : (pending.foldl selectStep pass).validTransactions = pass.validTransactions) :
    (pending.foldl selectStep pass).temporaryState = pass.temporaryState ∧
      ∀ transaction ∈ pending, ¬ Applies pass.temporaryState transaction := by
  induction pending generalizing pass with
  | nil => exact ⟨rfl, by simp⟩
  | cons transaction rest ih =>
    obtain ⟨chosen, _, later⟩ := foldl_selectStep_divides (selectStep pass transaction) rest
    rw [List.foldl_cons] at none ⊢
    have grows := later.valid
    rw [none] at grows
    rcases State.applyTransaction_normal bound (normal transaction (List.mem_cons_self ..)) with
      ⟨error, refused⟩ | ⟨applied, taken⟩
    · rw [selectStep_refused room refused] at none ⊢
      obtain ⟨same, fails⟩ := @ih { pass with nextPending := pass.nextPending ++ [transaction] } bound
        (fun other member => normal other (List.mem_cons_of_mem _ member)) room none
      refine ⟨same, fun other member applies => ?_⟩
      rcases List.mem_cons.mp member with rfl | later
      · obtain ⟨applied, ok⟩ := applies.applyTransaction
        rw [refused] at ok
        cases ok
      · exact fails other later applies
    · -- a transaction that applies is chosen, so the list would have grown
      rw [(selectStep_chosen room taken).2.1] at grows
      have longer := congrArg List.length grows
      rw [List.length_append, List.length_append, List.length_singleton] at longer
      omega

/-! ### The whole loop -/

/-- The pass over everything pending. -/
def selectPass (temporaryState : State) (validTransactions pending : List Transaction) : SelectionPass :=
  pending.foldl selectStep { temporaryState, validTransactions, nextPending := [], progress := false }

/-- The outer loop as a finite execution without a budget, by its three exits. -/
inductive SelectRun : State → List Transaction → List Transaction → State → List Transaction → List Transaction → Prop
  | drained {temporaryState valid} : SelectRun temporaryState valid [] temporaryState valid []
  | full {temporaryState valid pending} : pending ≠ [] →
      maxNormalTransactionsPerBlock ≤ (selectPass temporaryState valid pending).validTransactions.length →
      SelectRun temporaryState valid pending (selectPass temporaryState valid pending).temporaryState
        (selectPass temporaryState valid pending).validTransactions
        (selectPass temporaryState valid pending).nextPending
  | stuck {temporaryState valid pending} : pending ≠ [] →
      (selectPass temporaryState valid pending).validTransactions.length < maxNormalTransactionsPerBlock →
      (selectPass temporaryState valid pending).progress = false →
      SelectRun temporaryState valid pending (selectPass temporaryState valid pending).temporaryState
        (selectPass temporaryState valid pending).validTransactions
        (selectPass temporaryState valid pending).nextPending
  | again {temporaryState valid pending final taken left} : pending ≠ [] →
      (selectPass temporaryState valid pending).validTransactions.length < maxNormalTransactionsPerBlock →
      (selectPass temporaryState valid pending).progress = true →
      SelectRun (selectPass temporaryState valid pending).temporaryState
        (selectPass temporaryState valid pending).validTransactions
        (selectPass temporaryState valid pending).nextPending final taken left →
      SelectRun temporaryState valid pending final taken left

theorem selectPass_divides (temporaryState : State) (valid pending : List Transaction) :
    ∃ chosen, Divides { temporaryState, validTransactions := valid, nextPending := [], progress := false } pending
      (selectPass temporaryState valid pending) chosen (selectPass temporaryState valid pending).nextPending := by
  obtain ⟨chosen, rejected, divides⟩ := foldl_selectStep_divides
    { temporaryState, validTransactions := valid, nextPending := [], progress := false } pending
  have same : (selectPass temporaryState valid pending).nextPending = rejected := divides.next
  rw [same]
  exact ⟨chosen, divides⟩

theorem selectLoop_succ {fuel : Nat} {temporaryState : State} {valid pending : List Transaction}
    (nonempty : pending ≠ []) :
    selectLoop (fuel + 1) temporaryState valid pending =
      let pass := selectPass temporaryState valid pending
      if maxNormalTransactionsPerBlock ≤ pass.validTransactions.length then
        (pass.validTransactions, pass.nextPending)
      else if ¬ pass.progress then (pass.validTransactions, pass.nextPending)
      else selectLoop fuel pass.temporaryState pass.validTransactions pass.nextPending := by
  rw [selectLoop, if_neg nonempty]
  rfl

/-- Progress shortens the pending list, so the budget of the loop is never used up. -/
theorem selectLoop_run {fuel : Nat} {temporaryState : State} {valid pending : List Transaction}
    (enough : pending.length < fuel) :
    ∃ final, SelectRun temporaryState valid pending final (selectLoop fuel temporaryState valid pending).1
      (selectLoop fuel temporaryState valid pending).2 := by
  induction fuel generalizing temporaryState valid pending with
  | zero => omega
  | succ fuel ih =>
    by_cases empty : pending = []
    · subst empty
      exact ⟨temporaryState, .drained⟩
    · rw [selectLoop_succ empty]
      by_cases full :
          maxNormalTransactionsPerBlock ≤ (selectPass temporaryState valid pending).validTransactions.length
      · simp only [full, if_true]
        exact ⟨_, .full empty full⟩
      · simp only [full, if_false]
        cases progress : (selectPass temporaryState valid pending).progress with
        | false =>
          simp only [Bool.false_eq_true, not_false_eq_true, if_true]
          exact ⟨_, .stuck empty (by omega) progress⟩
        | true =>
          simp only [not_true_eq_false, if_false]
          obtain ⟨chosen, divides⟩ := selectPass_divides temporaryState valid pending
          have some : chosen ≠ [] := by simpa using divides.progress.mp progress
          have shorter := divides.all.length_eq
          rw [List.length_append] at shorter
          have nonempty := List.length_pos_iff.mpr some
          obtain ⟨final, run⟩ := @ih (selectPass temporaryState valid pending).temporaryState
            (selectPass temporaryState valid pending).validTransactions
            (selectPass temporaryState valid pending).nextPending (by omega)
          exact ⟨final, .again empty (by omega) progress run⟩

/-- What a run of the loop comes to, from the choices made so far. -/
structure Outcome (state : State) (valid pending : List Transaction) (final : State) (taken left : List Transaction) :
    Prop where
  applied : state.applyTransactionsAtomically taken = .ok final
  count : taken.length ≤ maxNormalTransactionsPerBlock
  divided : ∃ chosen, taken = valid ++ chosen ∧ (chosen ++ left).Perm pending
  order : left.Sublist pending
  maximal : taken.length < maxNormalTransactionsPerBlock → ∀ transaction ∈ left, ¬ Applies final transaction

theorem Selects.bound (selects : Selects state pass) (bound : state.totalBalance < 2 ^ 64) :
    pass.temporaryState.totalBalance < 2 ^ 64 := by
  have total := (State.applyTransactionsAtomically_pays selects.normal selects.applied).total
  omega

theorem SelectRun.outcome {temporaryState final : State} {valid pending taken left : List Transaction}
    (run : SelectRun temporaryState valid pending final taken left) (bound : state.totalBalance < 2 ^ 64)
    (selects : Selects state { temporaryState, validTransactions := valid, nextPending := [], progress := false })
    (normal : ∀ transaction ∈ pending, transaction.coinbase = false) :
    Outcome state valid pending final taken left := by
  induction run with
  | drained =>
    exact ⟨selects.applied, selects.count, ⟨[], (List.append_nil _).symm, List.Perm.refl _⟩, List.Sublist.refl _,
      fun _ _ member => absurd member List.not_mem_nil⟩
  | @full temporaryState valid pending nonempty full =>
    obtain ⟨after, _⟩ := selects.foldl bound normal
    obtain ⟨chosen, divides⟩ := selectPass_divides temporaryState valid pending
    exact ⟨after.applied, after.count, ⟨chosen, divides.valid, divides.all⟩, divides.order,
      fun room => absurd full (by omega)⟩
  | @stuck temporaryState valid pending nonempty room progress =>
    obtain ⟨after, _⟩ := selects.foldl bound normal
    obtain ⟨chosen, divides⟩ := selectPass_divides temporaryState valid pending
    have none : chosen = [] := by
      by_contra some
      rw [divides.progress.mpr (Or.inr some)] at progress
      cases progress
    have same : (selectPass temporaryState valid pending).validTransactions = valid := by
      rw [divides.valid, none, List.append_nil]
    rw [same] at room
    obtain ⟨kept, fails⟩ := foldl_selectStep_stuck (selects.bound bound) normal room same
    refine ⟨after.applied, after.count, ⟨chosen, divides.valid, divides.all⟩, divides.order,
      fun _ transaction member => ?_⟩
    rw [selectPass, kept]
    exact fails transaction (divides.order.subset member)
  | @again temporaryState valid pending final taken left nonempty room progress rest ih =>
    obtain ⟨after, _⟩ := selects.foldl bound normal
    obtain ⟨chosen, divides⟩ := selectPass_divides temporaryState valid pending
    have later := ih (after.restart [] false) fun transaction member =>
      normal transaction (divides.order.subset member)
    obtain ⟨chosen', split, all⟩ := later.divided
    refine ⟨later.applied, later.count, ⟨chosen ++ chosen', ?_, ?_⟩, later.order.trans divides.order, later.maximal⟩
    · rw [split, divides.valid, List.append_assoc]
    · rw [List.append_assoc]
      exact (all.append_left chosen).trans divides.all

theorem takeValidTransactions_outcome (mempool : Mempool) (bound : state.totalBalance < 2 ^ 64)
    (normal : ∀ transaction ∈ mempool.transactions, transaction.coinbase = false) :
    ∃ final, SelectRun state [] mempool.transactions final (mempool.takeValidTransactions state).1
        (mempool.takeValidTransactions state).2.transactions ∧
      Outcome state [] mempool.transactions final (mempool.takeValidTransactions state).1
        (mempool.takeValidTransactions state).2.transactions := by
  obtain ⟨final, run⟩ := @selectLoop_run (mempool.transactions.length + 1) state [] mempool.transactions
    (Nat.lt_succ_self _)
  exact ⟨final, run, run.outcome bound (Selects.start state [] false) normal⟩

/-! ### Overflow checks -/

/-- The turn of the inner loop where overflow checks are on. An error is caught, a panic is not. -/
def strictSelectStep (pass : SelectionPass) (transaction : Transaction) : Result SelectionPass :=
  if maxNormalTransactionsPerBlock ≤ pass.validTransactions.length then
    .ok { pass with nextPending := pass.nextPending ++ [transaction] }
  else
    match pass.temporaryState.strictApplyTransaction transaction with
    | (.ok (), applied) =>
      .ok { pass with
        temporaryState := applied
        validTransactions := pass.validTransactions ++ [transaction]
        progress := true }
    | (.error (.error _), left) =>
      .ok { pass with temporaryState := left, nextPending := pass.nextPending ++ [transaction] }
    | (.error (.panic message), _) => .error (.panic message)

def strictSelectLoop : Nat → State → List Transaction → List Transaction →
    Result (List Transaction × List Transaction)
  | 0, _, validTransactions, pendingTransactions => .ok (validTransactions, pendingTransactions)
  | fuel + 1, temporaryState, validTransactions, pendingTransactions =>
    if pendingTransactions = [] then .ok (validTransactions, [])
    else do
      let pass ← pendingTransactions.foldlM strictSelectStep
        { temporaryState, validTransactions, nextPending := [], progress := false }
      if maxNormalTransactionsPerBlock ≤ pass.validTransactions.length then
        return (pass.validTransactions, pass.nextPending)
      else if ¬ pass.progress then return (pass.validTransactions, pass.nextPending)
      else strictSelectLoop fuel pass.temporaryState pass.validTransactions pass.nextPending

/-- `take_valid_transactions` where overflow checks are on. -/
def strictTakeValidTransactions (self : Mempool) (state : State) : Result (List Transaction × Mempool) := do
  let (validTransactions, left) ← strictSelectLoop (self.transactions.length + 1) state [] self.transactions
  return (validTransactions, { transactions := left })

/-- No account can use up its nonces with what is left to try. -/
structure Roomy (pass : SelectionPass) (remaining : ℕ) : Prop where
  bound : pass.temporaryState.totalBalance < 2 ^ 64
  nonces : ∀ a, (pass.temporaryState.nonceOf a).toNat + (pass.nextPending.length + remaining) < 2 ^ 64

/-- Every turn either uses one nonce and one pending transaction or neither. -/
theorem strictSelectStep_eq {remaining : ℕ} (roomy : Roomy pass (remaining + 1))
    (normal : transaction.coinbase = false) :
    strictSelectStep pass transaction = .ok (selectStep pass transaction) ∧
      Roomy (selectStep pass transaction) remaining := by
  obtain ⟨bound, nonces⟩ := roomy
  have kept : Roomy { pass with nextPending := pass.nextPending ++ [transaction] } remaining := by
    refine ⟨bound, fun a => ?_⟩
    have room := nonces a
    rw [List.length_append, List.length_singleton]
    dsimp only
    omega
  by_cases full : maxNormalTransactionsPerBlock ≤ pass.validTransactions.length
  · rw [selectStep_full full, strictSelectStep, if_pos full]
    exact ⟨rfl, kept⟩
  · have room : pass.validTransactions.length < maxNormalTransactionsPerBlock := by omega
    have strict : pass.temporaryState.strictApplyTransaction transaction =
        pass.temporaryState.applyTransaction transaction := by
      apply State.strictApplyTransaction_eq
      intro _
      have below := nonces transaction.from
      omega
    rcases State.applyTransaction_normal bound normal with ⟨error, refused⟩ | ⟨applied, taken⟩
    · rw [selectStep_refused room refused, strictSelectStep, if_neg full, strict, refused]
      exact ⟨rfl, kept⟩
    · have ok : pass.temporaryState.tryApplyTransaction transaction = .ok applied := by
        rw [State.tryApplyTransaction, taken]
      have pays := State.normal_pays normal ok
      obtain ⟨after, _, pending⟩ := selectStep_chosen room taken
      constructor
      · rw [strictSelectStep, if_neg full, strict, taken, selectStep, if_neg full, taken]
      · refine ⟨?_, fun a => ?_⟩
        · have total := pays.total
          rw [after]
          omega
        · have below := nonces a
          rw [after, pending, pays.nonces a]
          by_cases sender : a = transaction.from
          · have next := toNat_add_ofNat (a := pass.temporaryState.nonceOf a) (n := 1) (by omega)
            rw [if_pos sender]
            change ((pass.temporaryState.nonceOf a + UInt64.ofNat 1).toNat + _ < _)
            omega
          · rw [if_neg sender, UInt64.add_zero]
            omega

theorem foldlM_strictSelectStep_eq {pending : List Transaction} (roomy : Roomy pass pending.length)
    (normal : ∀ transaction ∈ pending, transaction.coinbase = false) :
    pending.foldlM strictSelectStep pass = .ok (pending.foldl selectStep pass) ∧
      Roomy (pending.foldl selectStep pass) 0 := by
  induction pending generalizing pass with
  | nil => exact ⟨rfl, roomy⟩
  | cons transaction rest ih =>
    obtain ⟨same, next⟩ := strictSelectStep_eq roomy (normal transaction (List.mem_cons_self ..))
    obtain ⟨later, final⟩ := ih next fun other member => normal other (List.mem_cons_of_mem _ member)
    exact ⟨foldlM_cons_eq_ok.mpr ⟨_, same, later⟩, final⟩

theorem strictSelectLoop_eq {fuel : Nat} {temporaryState : State} {valid pending : List Transaction}
    (bound : temporaryState.totalBalance < 2 ^ 64)
    (nonces : ∀ a, (temporaryState.nonceOf a).toNat + pending.length < 2 ^ 64)
    (normal : ∀ transaction ∈ pending, transaction.coinbase = false) :
    strictSelectLoop fuel temporaryState valid pending = .ok (selectLoop fuel temporaryState valid pending) := by
  induction fuel generalizing temporaryState valid pending with
  | zero => rfl
  | succ fuel ih =>
    by_cases empty : pending = []
    · rw [strictSelectLoop, selectLoop, if_pos empty, if_pos empty]
    · have roomy : Roomy { temporaryState, validTransactions := valid, nextPending := [], progress := false }
          pending.length := by
        refine ⟨bound, fun a => ?_⟩
        rw [List.length_nil, Nat.zero_add]
        exact nonces a
      obtain ⟨same, after⟩ := foldlM_strictSelectStep_eq roomy normal
      change _ = Except.ok (selectPass temporaryState valid pending) at same
      change Roomy (selectPass temporaryState valid pending) 0 at after
      rw [strictSelectLoop, if_neg empty, same, selectLoop_succ empty]
      obtain ⟨chosen, divides⟩ := selectPass_divides temporaryState valid pending
      generalize selectPass temporaryState valid pending = pass at after divides
      by_cases full : maxNormalTransactionsPerBlock ≤ pass.validTransactions.length
      · simp only [full, if_true]
        exact if_pos full
      · simp only [full, if_false]
        cases progress : pass.progress with
        | false =>
          refine (if_neg full).trans ?_
          simp [progress, pure, Except.pure]
        | true =>
          have rest : ∀ a, (pass.temporaryState.nonceOf a).toNat + pass.nextPending.length < 2 ^ 64 := by
            intro a
            have room := after.nonces a
            omega
          have later := @ih pass.temporaryState pass.validTransactions pass.nextPending after.bound rest
            fun transaction member => normal transaction (divides.order.subset member)
          refine (if_neg full).trans ?_
          simp only [progress, not_true_eq_false, if_false]
          exact later

theorem strictTakeValidTransactions_eq {mempool : Mempool}
    (normal : ∀ transaction ∈ mempool.transactions, transaction.coinbase = false)
    (bound : state.totalBalance < 2 ^ 64)
    (nonces : ∀ a, (state.nonceOf a).toNat + mempool.transactions.length < 2 ^ 64) :
    mempool.strictTakeValidTransactions state = .ok (mempool.takeValidTransactions state) := by
  rw [strictTakeValidTransactions, strictSelectLoop_eq bound nonces normal]
  rfl

/-- Selection from a mempool ends without a panic and loses nothing. What it takes applies as a
batch, in the order taken; what it leaves keeps its order, and, where the block has room left,
holds nothing that would still apply. -/
theorem takeValidTransactions_maximal (mempool : Mempool) (state : State)
    (normal : ∀ transaction ∈ mempool.transactions, transaction.coinbase = false)
    (bound : state.totalBalance < 2 ^ 64)
    (nonces : ∀ a, (state.nonceOf a).toNat + mempool.transactions.length < 2 ^ 64 - 1) :
    let taken := (mempool.takeValidTransactions state).1
    let left := (mempool.takeValidTransactions state).2.transactions
    (∃ final, SelectRun state [] mempool.transactions final taken left) ∧
      mempool.strictTakeValidTransactions state = .ok (mempool.takeValidTransactions state) ∧
      (taken ++ left).Perm mempool.transactions ∧ left.Sublist mempool.transactions ∧
      taken.length ≤ maxNormalTransactionsPerBlock ∧
      ∃ final, state.applyTransactionsAtomically taken = .ok final ∧
        (taken.length < maxNormalTransactionsPerBlock → ∀ transaction ∈ left, ¬ Applies final transaction) := by
  obtain ⟨final, run, outcome⟩ := takeValidTransactions_outcome mempool bound normal
  obtain ⟨chosen, same, all⟩ := outcome.divided
  have strict := strictTakeValidTransactions_eq normal bound fun a => (nonces a).trans (by omega)
  refine ⟨⟨final, run⟩, strict, ?_, outcome.order, outcome.count, final, outcome.applied, outcome.maximal⟩
  rw [same, List.nil_append]
  exact all

end Kybernetes.Mempool

namespace Kybernetes.Fixture

def unsignedPayment («from» «to» : Text) (amount nonce : UInt64) : Transaction where
  id := []
  «from» := «from»
  publicKey := []
  «to» := «to»
  amount := amount
  fee := 1
  nonce := nonce
  signature := none
  coinbase := false
  rewardMarker := 0

def savings : State :=
  State.new.createAccount (str "a") 100

theorem savings_nonces (a : Text) : savings.nonceOf a = 0 :=
  State.nonceOf_createAccount (fun _ => rfl) _ _ a

def deposit : Transaction := unsignedPayment (str "a") (str "b") 30 0
def second : Transaction := unsignedPayment (str "a") (str "b") 20 1
def onward : Transaction := unsignedPayment (str "b") (str "c") 5 0
def early : Transaction := unsignedPayment (str "a") (str "c") 1 9

/-- The payments arrive in the wrong order, one opens the account of another and one has no turn. -/
def unordered : Mempool where
  transactions := [onward, second, deposit, early]

theorem unordered_selection :
    (unordered.takeValidTransactions savings).1 =
        [deposit, onward, second] ∧
      ∃ final, savings.applyTransactionsAtomically (unordered.takeValidTransactions savings).1 = .ok final ∧
        ∀ transaction ∈ (unordered.takeValidTransactions savings).2.transactions,
          ¬ Mempool.Applies final transaction := by
  have taken : (unordered.takeValidTransactions savings).1 =
      [deposit, onward, second] := by
    decide +kernel
  obtain ⟨_, _, _, _, _, final, applied, maximal⟩ := Mempool.takeValidTransactions_maximal unordered savings
    (by decide) (by decide +kernel) (fun a => by rw [savings_nonces a]; decide)
  exact ⟨taken, final, applied, maximal (by rw [taken]; decide)⟩

end Kybernetes.Fixture
