import Kybernetes.Production
import Kybernetes.Solvency

namespace Kybernetes.Mempool

/-- The choices of a pass so far apply one after the other to the state the
selection began with. -/
structure Selects (state : State) (pass : SelectionPass) : Prop where
  applied : state.applyTransactionsAtomically pass.validTransactions = .ok pass.temporaryState
  count : pass.validTransactions.length ≤ maxNormalTransactionsPerBlock
  normal : ∀ transaction ∈ pass.validTransactions, transaction.coinbase = false

/-- The transaction could be the next one of its sender. -/
def Applies (state : State) (transaction : Transaction) : Prop :=
  ∃ applied, state.tryApplyTransaction transaction = .ok applied

theorem Applies.applyTransaction {state : State} {transaction : Transaction}
    (applies : Applies state transaction) : ∃ applied, state.applyTransaction transaction = (.ok (), applied) := by
  obtain ⟨applied, run⟩ := applies
  unfold State.tryApplyTransaction at run
  split at run
  · rename_i left step
    exact ⟨left, step⟩
  · cases run

theorem Applies.of_applyTransaction {state : State} {transaction : Transaction}
    (run : (state.applyTransaction transaction).1 = .ok ()) : Applies state transaction := by
  refine ⟨(state.applyTransaction transaction).2, ?_⟩
  unfold State.tryApplyTransaction
  split
  · rename_i applied step
    rw [step]
  · rename_i fault left step
    rw [step] at run
    cases run

variable {state : State} {pass : SelectionPass} {transaction : Transaction}

theorem Selects.start (state : State) (nextPending : List Transaction) (progress : Bool) :
    Selects state { temporaryState := state, validTransactions := [], nextPending, progress } :=
  ⟨rfl, Nat.zero_le _, by simp⟩

/-- The bookkeeping of the pending transactions plays no part. -/
theorem Selects.restart (selects : Selects state pass) (nextPending : List Transaction) (progress : Bool) :
    Selects state { pass with nextPending, progress } :=
  ⟨selects.applied, selects.count, selects.normal⟩

/-- A refused transaction leaves no trace in the temporary state, so one more
turn keeps the choices in order, and what was chosen stays chosen. -/
theorem Selects.step (bound : state.totalBalance < 2 ^ 64) (selects : Selects state pass)
    (normal : transaction.coinbase = false) :
    Selects state (selectStep pass transaction) ∧
      pass.validTransactions <+: (selectStep pass transaction).validTransactions := by
  have total := (State.applyTransactionsAtomically_pays selects.normal selects.applied).total
  unfold selectStep
  split
  · exact ⟨selects.restart _ _, List.prefix_refl _⟩
  rename_i room
  have still : pass.temporaryState.totalBalance < 2 ^ 64 := by omega
  rcases State.applyTransaction_normal still normal with ⟨error, refused⟩ | ⟨applied, chosen⟩
  · rw [refused]
    exact ⟨selects.restart _ _, List.prefix_refl _⟩
  · rw [chosen]
    refine ⟨⟨?_, ?_, fun other member => ?_⟩, List.prefix_append _ _⟩
    · have next : pass.temporaryState.tryApplyTransaction transaction = .ok applied := by
        unfold State.tryApplyTransaction
        rw [chosen]
      exact foldlM_append_eq_ok.mpr ⟨_, selects.applied, foldlM_cons_eq_ok.mpr ⟨_, next, rfl⟩⟩
    · rw [List.length_append, List.length_singleton]
      omega
    · rcases List.mem_append.mp member with old | new
      · exact selects.normal other old
      · rw [List.mem_singleton.mp new]
        exact normal

/-- The first choice of a selection is whatever applies to the state. -/
theorem Selects.first (selects : Selects state pass) (none : pass.validTransactions = [])
    (applies : Applies state transaction) : (selectStep pass transaction).validTransactions ≠ [] := by
  have same : state = pass.temporaryState := by
    have applied := selects.applied
    rw [none] at applied
    exact foldlM_nil_eq_ok.mp applied
  obtain ⟨applied, chosen⟩ := applies.applyTransaction
  unfold selectStep
  rw [none, if_neg (by decide), ← same, chosen]
  simp

theorem Selects.foldl (bound : state.totalBalance < 2 ^ 64) (selects : Selects state pass)
    {pending : List Transaction} (normal : ∀ transaction ∈ pending, transaction.coinbase = false) :
    Selects state (pending.foldl selectStep pass) ∧
      (pass.validTransactions ≠ [] ∨ (∃ transaction ∈ pending, Applies state transaction) →
        (pending.foldl selectStep pass).validTransactions ≠ []) := by
  induction pending generalizing pass with
  | nil => exact ⟨selects, by simp⟩
  | cons transaction rest ih =>
    obtain ⟨next, grows⟩ := selects.step bound (normal transaction (by simp))
    obtain ⟨final, chooses⟩ := ih next fun other member => normal other (by simp [member])
    refine ⟨final, fun some => chooses ?_⟩
    by_cases none : pass.validTransactions = []
    · rcases some with chosen | ⟨applicable, member, applies⟩
      · exact absurd none chosen
      · rcases List.mem_cons.mp member with rfl | later
        · exact Or.inl (selects.first none applies)
        · exact Or.inr ⟨applicable, later, applies⟩
    · exact Or.inl fun empty => none (List.prefix_nil.mp (empty ▸ grows))

/-- What the loop returns applies as a batch, and it is not empty when some
pending transaction applies. -/
theorem selectLoop_selects (bound : state.totalBalance < 2 ^ 64) (fuel : Nat) {temporaryState : State}
    {validTransactions pending : List Transaction}
    (selects : ∀ nextPending progress, Selects state
      { temporaryState, validTransactions, nextPending, progress })
    (normal : ∀ transaction ∈ pending, transaction.coinbase = false) :
    ∃ final, Selects state final ∧ final.validTransactions =
        (selectLoop fuel temporaryState validTransactions pending).1 ∧
      (validTransactions ≠ [] ∨ fuel ≠ 0 ∧ (∃ transaction ∈ pending, Applies state transaction) →
        final.validTransactions ≠ []) := by
  induction fuel generalizing temporaryState validTransactions pending with
  | zero => exact ⟨_, selects [] false, rfl, by simp⟩
  | succ fuel ih =>
    unfold selectLoop
    split
    · rename_i empty
      refine ⟨_, selects [] false, rfl, ?_⟩
      rintro (chosen | ⟨_, applicable, member, _⟩)
      · exact chosen
      · simp [empty] at member
    · dsimp only
      obtain ⟨after, chooses⟩ := (selects [] false).foldl bound normal
      let fresh : SelectionPass := { temporaryState, validTransactions, nextPending := [], progress := false }
      have left := fun other => (foldl_selectStep_mem fresh pending other).2
      have kept : fresh.nextPending = [] := rfl
      change Selects state (pending.foldl selectStep fresh) at after
      generalize pending.foldl selectStep fresh = pass at after chooses left ⊢
      have chosen : validTransactions ≠ [] ∨
          fuel + 1 ≠ 0 ∧ (∃ transaction ∈ pending, Applies state transaction) → pass.validTransactions ≠ [] := by
        rintro (some | ⟨_, some⟩)
        · exact chooses (Or.inl some)
        · exact chooses (Or.inr some)
      split
      · exact ⟨pass, after, rfl, chosen⟩
      · split
        · exact ⟨pass, after, rfl, chosen⟩
        · obtain ⟨final, done, result, keeps⟩ := ih (fun nextPending progress => after.restart nextPending progress)
            fun transaction member => by
              rcases left transaction member with none | old
              · rw [kept] at none
                cases none
              · exact normal transaction old
          exact ⟨final, done, result, fun some => keeps (Or.inl (chosen some))⟩

theorem takeValidTransactions_applies {mempool : Mempool} (bound : state.totalBalance < 2 ^ 64)
    (normal : ∀ transaction ∈ mempool.transactions, transaction.coinbase = false)
    (some : ∃ transaction ∈ mempool.transactions, Applies state transaction) :
    (mempool.takeValidTransactions state).1 ≠ [] ∧
      (mempool.takeValidTransactions state).1.length ≤ maxNormalTransactionsPerBlock ∧
      ∃ paid, state.applyTransactionsAtomically (mempool.takeValidTransactions state).1 = .ok paid := by
  obtain ⟨final, selects, result, chooses⟩ := selectLoop_selects bound (mempool.transactions.length + 1)
    (fun nextPending progress => Selects.start state nextPending progress) normal
  have taken : (mempool.takeValidTransactions state).1 = final.validTransactions := result.symm
  rw [taken]
  exact ⟨chooses (Or.inr ⟨Nat.succ_ne_zero _, some⟩), selects.count, final.temporaryState, selects.applied⟩

end Kybernetes.Mempool
