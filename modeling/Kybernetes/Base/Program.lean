import Kybernetes.Base.Result
import Kybernetes.Base.Runs
import Mathlib.Logic.Function.Basic
import Mathlib.Logic.Relation

namespace Kybernetes

/-- A program that makes calls, each chosen by the answers to those before, and ends with a result. -/
inductive Program (κ : Type) (ρ : κ → Type) (α : Type) : Type
  | done (result : Result α)
  | call (k : κ) (next : ρ k → Program κ ρ α)

namespace Program

variable {κ : Type} {ρ : κ → Type} {α β : Type}

protected def bind : Program κ ρ α → (α → Program κ ρ β) → Program κ ρ β
  | done (.ok a), f => f a
  | done (.error fault), _ => done (.error fault)
  | call k next, f => call k fun answer => (next answer).bind f

instance : Monad (Program κ ρ) where
  pure a := done (.ok a)
  bind := Program.bind

/-- One call, with its answer as the value. -/
def ask (k : κ) : Program κ ρ (ρ k) :=
  call k fun answer => done (.ok answer)

/-- The result of a program as a value, so that an error does not end what comes after it. -/
def attempt : Program κ ρ α → Program κ ρ (Result α)
  | done result => done (.ok result)
  | call k next => call k fun answer => (next answer).attempt

/-- `map_err` on the answer to a call, and `?`. -/
def orError (answer : Except String α) (context : String) : Program κ ρ α :=
  match answer with
  | .ok a => done (.ok a)
  | .error error => done (.error (.error (context ++ error)))

@[simp] theorem ask_bind (k : κ) (f : ρ k → Program κ ρ α) : ask k >>= f = call k f :=
  rfl

@[simp] theorem call_bind (k : κ) (next : ρ k → Program κ ρ α) (f : α → Program κ ρ β) :
    (call k next >>= f : Program κ ρ β) = call k fun answer => next answer >>= f :=
  rfl

@[simp] theorem done_ok_bind (a : α) (f : α → Program κ ρ β) : (done (.ok a) >>= f : Program κ ρ β) = f a :=
  rfl

@[simp] theorem done_error_bind (fault : Fault) (f : α → Program κ ρ β) :
    (done (.error fault) >>= f : Program κ ρ β) = done (.error fault) :=
  rfl

@[simp] theorem orError_ok_bind (a : α) (context : String) (f : α → Program κ ρ β) :
    (orError (.ok a) context >>= f : Program κ ρ β) = f a :=
  rfl

@[simp] theorem orError_error_bind (error context : String) (f : α → Program κ ρ β) :
    (orError (.error error) context >>= f : Program κ ρ β) = done (.error (.error (context ++ error))) :=
  rfl

section

variable {σ ω : Type} (perform : ω → (k : κ) → σ → ρ k × σ)

/-- The program makes its calls for as long as there are chances. If calls are left then, it was
stopped. -/
def runFor : Program κ ρ α → List ω → σ → Program κ ρ α × σ
  | done result, _, s => (done result, s)
  | call k next, [], s => (call k next, s)
  | call k next, chance :: chances, s => (next (perform chance k s).1).runFor chances (perform chance k s).2

theorem runFor_orError (answer : Except String α) (context : String) (chances : List ω) (s : σ) :
    (orError answer context : Program κ ρ α).runFor perform chances s = (orError answer context, s) := by
  cases answer <;> rfl

/-- Whatever the others do within `rely` before each call, the call stays within `guarantee`, and
the result meets `post`. -/
def Honours (rely guarantee : σ → σ → Prop) (post : Result α → σ → Prop) : Program κ ρ α → σ → Prop
  | done result, s => post result s
  | call k next, s => ∀ t, rely s t → ∀ chance, guarantee t (perform chance k t).2 ∧
      Honours rely guarantee post (next (perform chance k t).1) (perform chance k t).2

variable {perform} {rely guarantee : σ → σ → Prop} {post : Result α → σ → Prop} {program : Program κ ρ α} {s t : σ}

theorem Honours.mono {post' : Result α → σ → Prop} (honours : program.Honours perform rely guarantee post s)
    (weaker : ∀ result t, post result t → post' result t) : program.Honours perform rely guarantee post' s := by
  induction program generalizing s with
  | done result => exact weaker result s honours
  | call k next ih =>
    intro t others chance
    obtain ⟨kept, rest⟩ := honours t others chance
    exact ⟨kept, ih _ rest⟩

/-- A program can be taken up where the others have left it. -/
theorem Honours.of_rely (honours : program.Honours perform rely guarantee post s)
    (trans : ∀ s t u, rely s t → rely t u → rely s u)
    (stable : ∀ result s t, rely s t → post result s → post result t) (others : rely s t) :
    program.Honours perform rely guarantee post t := by
  cases program with
  | done result => exact stable result s t others honours
  | call k next => exact fun u more chance => honours u (trans s t u others more) chance

theorem Honours.bind {f : α → Program κ ρ β} {post : Result β → σ → Prop}
    (first : program.Honours perform rely guarantee (fun result t =>
      match result with
      | .ok a => (f a).Honours perform rely guarantee post t
      | .error fault => post (.error fault) t) s) :
    (program >>= f).Honours perform rely guarantee post s := by
  induction program generalizing s with
  | done result =>
    cases result with
    | ok a => exact first
    | error fault => exact first
  | call k next ih =>
    intro t others chance
    obtain ⟨kept, rest⟩ := first t others chance
    exact ⟨kept, ih _ rest⟩

theorem Honours.attempt {post : Result (Result α) → σ → Prop}
    (honours : program.Honours perform rely guarantee (fun result => post (.ok result)) s) :
    program.attempt.Honours perform rely guarantee post s := by
  induction program generalizing s with
  | done result => exact honours
  | call k next ih =>
    intro t others chance
    obtain ⟨kept, rest⟩ := honours t others chance
    exact ⟨kept, ih _ rest⟩

/-- A program on its own. -/
theorem Honours.runFor (honours : program.Honours perform rely guarantee post s) (refl : ∀ s, rely s s)
    (chances : List ω) {rest : Program κ ρ α} (run : program.runFor perform chances s = (rest, t)) :
    Relation.ReflTransGen guarantee s t ∧ rest.Honours perform rely guarantee post t := by
  induction chances generalizing program s with
  | nil =>
    cases program with
    | done result =>
      cases run
      exact ⟨.refl, honours⟩
    | call k next =>
      cases run
      exact ⟨.refl, honours⟩
  | cons chance chances ih =>
    cases program with
    | done result =>
      cases run
      exact ⟨.refl, honours⟩
    | call k next =>
      obtain ⟨kept, behind⟩ := honours s (refl s) chance
      obtain ⟨path, end'⟩ := ih behind run
      exact ⟨.head kept path, end'⟩

end

end Program

/-! ### Programs side by side -/

/-- How far a program has come. -/
inductive Progress (κ : Type) (ρ : κ → Type) (α : Type)
  | waiting
  | running (rest : Program κ ρ α)
  | stopped

/-- Programs that work on one state. -/
structure Pool (ι κ : Type) (ρ : κ → Type) (α : ι → Type) (σ : Type) where
  shared : σ
  progress : (i : ι) → Progress κ ρ (α i)

/-- One program makes its next call, or an outage ends all that have begun. -/
inductive PoolEvent (ι ω δ : Type)
  | call (i : ι) (chance : ω)
  | outage (damage : δ)

namespace Pool

variable {ι κ : Type} {ρ : κ → Type} {α : ι → Type} {σ ω δ : Type} [DecidableEq ι]

def advance (perform : ω → (k : κ) → σ → ρ k × σ) (pool : Pool ι κ ρ α σ) (i : ι) (chance : ω) :
    Program κ ρ (α i) → Pool ι κ ρ α σ
  | .done result => { pool with progress := Function.update pool.progress i (.running (.done result)) }
  | .call k next =>
    let answered := perform chance k pool.shared
    { shared := answered.2, progress := Function.update pool.progress i (.running (next answered.1)) }

omit [DecidableEq ι] in
def start (s : σ) : Pool ι κ ρ α σ where
  shared := s
  progress _ := .waiting

def step (perform : ω → (k : κ) → σ → ρ k × σ) (fail : δ → σ → σ) (code : (i : ι) → Program κ ρ (α i))
    (pool : Pool ι κ ρ α σ) : PoolEvent ι ω δ → Pool ι κ ρ α σ
  | .call i chance =>
    match pool.progress i with
    | .waiting => pool.advance perform i chance (code i)
    | .running rest => pool.advance perform i chance rest
    | .stopped => pool
  | .outage damage =>
    { shared := fail damage pool.shared
      progress := fun i =>
        match pool.progress i with
        | .waiting => .waiting
        | _ => .stopped }

/-- The terms on which programs work side by side: what each expects from the others and what it
does, the state that it needs to begin, the result that it comes to, and what holds all the time. -/
structure Terms (perform : ω → (k : κ) → σ → ρ k × σ) (fail : δ → σ → σ) (code : (i : ι) → Program κ ρ (α i)) where
  inv : σ → Prop
  rely : ι → σ → σ → Prop
  guarantee : ι → σ → σ → Prop
  ready : ι → σ → Prop
  post : (i : ι) → Result (α i) → σ → Prop
  rely_refl : ∀ i s, rely i s s
  rely_trans : ∀ i s t u, rely i s t → rely i t u → rely i s u
  fits : ∀ i j s t, i ≠ j → inv s → guarantee i s t → rely j s t
  keeps : ∀ i s t, inv s → guarantee i s t → inv t
  ready_rely : ∀ i s t, rely i s t → ready i s → ready i t
  post_rely : ∀ i result s t, rely i s t → post i result s → post i result t
  honours : ∀ i s, inv s → ready i s → (code i).Honours perform (rely i) (guarantee i) (post i) s
  inv_fail : ∀ damage s, inv s → inv (fail damage s)
  ready_fail : ∀ damage i s, inv s → ready i s → ready i (fail damage s)

variable {perform : ω → (k : κ) → σ → ρ k × σ} {fail : δ → σ → σ} {code : (i : ι) → Program κ ρ (α i)}

/-- The terms are kept so far. -/
structure Kept (terms : Terms perform fail code) (pool : Pool ι κ ρ α σ) : Prop where
  inv : terms.inv pool.shared
  waiting : ∀ i, pool.progress i = .waiting → terms.ready i pool.shared
  running : ∀ i rest, pool.progress i = .running rest →
    rest.Honours perform (terms.rely i) (terms.guarantee i) (terms.post i) pool.shared

theorem Kept.advance {terms : Terms perform fail code} {pool : Pool ι κ ρ α σ} (kept : Kept terms pool)
    {i : ι} {rest : Program κ ρ (α i)}
    (honours : rest.Honours perform (terms.rely i) (terms.guarantee i) (terms.post i) pool.shared) (chance : ω) :
    Kept terms (pool.advance perform i chance rest) := by
  cases rest with
  | done result =>
    refine ⟨kept.inv, fun j idle => ?_, fun j rest busy => ?_⟩
    · by_cases same : j = i
      · subst same
        simp only [Pool.advance, Function.update_self] at idle
        cases idle
      · simp only [Pool.advance, Function.update_of_ne same] at idle
        exact kept.waiting j idle
    · by_cases same : j = i
      · subst same
        simp only [Pool.advance, Function.update_self, Progress.running.injEq] at busy
        subst busy
        exact honours
      · simp only [Pool.advance, Function.update_of_ne same] at busy
        exact kept.running j rest busy
  | call k next =>
    obtain ⟨within, behind⟩ := honours pool.shared (terms.rely_refl i _) chance
    refine ⟨terms.keeps i _ _ kept.inv within, fun j idle => ?_, fun j rest busy => ?_⟩
    · by_cases same : j = i
      · subst same
        simp only [Pool.advance, Function.update_self] at idle
        cases idle
      · simp only [Pool.advance, Function.update_of_ne same] at idle
        exact terms.ready_rely j _ _ (terms.fits i j _ _ (Ne.symm same) kept.inv within) (kept.waiting j idle)
    · by_cases same : j = i
      · subst same
        simp only [Pool.advance, Function.update_self, Progress.running.injEq] at busy
        subst busy
        exact behind
      · simp only [Pool.advance, Function.update_of_ne same] at busy
        exact (kept.running j rest busy).of_rely (terms.rely_trans j) (terms.post_rely j)
          (terms.fits i j _ _ (Ne.symm same) kept.inv within)

theorem Kept.step {terms : Terms perform fail code} {pool : Pool ι κ ρ α σ} (kept : Kept terms pool)
    (event : PoolEvent ι ω δ) : Kept terms (pool.step perform fail code event) := by
  cases event with
  | call i chance =>
    simp only [Pool.step]
    cases stage : pool.progress i with
    | waiting => exact kept.advance (terms.honours i _ kept.inv (kept.waiting i stage)) chance
    | running rest => exact kept.advance (kept.running i rest stage) chance
    | stopped => exact kept
  | outage damage =>
    refine ⟨terms.inv_fail damage _ kept.inv, fun i idle => ?_, fun i rest busy => ?_⟩
    · refine terms.ready_fail damage i _ kept.inv (kept.waiting i ?_)
      simp only [Pool.step] at idle
      split at idle
      · assumption
      · cases idle
    · simp only [Pool.step] at busy
      split at busy <;> cases busy

/-- A call does what its program guarantees, or nothing. -/
theorem Kept.guarantee {terms : Terms perform fail code} {pool : Pool ι κ ρ α σ} (kept : Kept terms pool) (i : ι)
    (chance : ω) : (pool.step perform fail code (.call i chance)).shared = pool.shared ∨
      terms.guarantee i pool.shared (pool.step perform fail code (.call i chance)).shared := by
  have advances : ∀ rest : Program κ ρ (α i),
      rest.Honours perform (terms.rely i) (terms.guarantee i) (terms.post i) pool.shared →
        (pool.advance perform i chance rest).shared = pool.shared ∨
          terms.guarantee i pool.shared (pool.advance perform i chance rest).shared := by
    intro rest honours
    cases rest with
    | done result => exact Or.inl rfl
    | call k next => exact Or.inr (honours pool.shared (terms.rely_refl i _) chance).1
  simp only [Pool.step]
  cases stage : pool.progress i with
  | waiting => exact advances _ (terms.honours i _ kept.inv (kept.waiting i stage))
  | running rest => exact advances _ (kept.running i rest stage)
  | stopped => exact Or.inl rfl

/-- Programs whose terms fit keep them in every order of their calls and through every outage. -/
theorem Terms.run (terms : Terms perform fail code) {s : σ} (inv : terms.inv s)
    (ready : ∀ i, terms.ready i s) (events : List (PoolEvent ι ω δ)) :
    Kept terms (runFrom (Pool.step perform fail code) (Pool.start s) events) :=
  runFrom_invariant (Kept terms) (fun _ event kept => kept.step event)
    ⟨inv, fun i _ => ready i, fun i rest busy => by cases busy⟩ events

end Pool

end Kybernetes
