import Kybernetes.Base.Result
import Kybernetes.Crypto

namespace Kybernetes

structure Validator where
  address : Text
  stake : UInt64
deriving DecidableEq, Repr

structure Consensus where
  validators : List Validator
deriving DecidableEq, Repr

namespace Consensus

def new : Consensus where
  validators := []

def addValidator (self : Consensus) (address : Text) (stake : UInt64) : Bool × Consensus :=
  if stake = 0 then (false, self)
  else if self.validators.any fun v => v.address == address then (false, self)
  else (true, { validators := self.validators ++ [{ address, stake }] })

/-- What `iter_mut().find(..).ok_or(..)?` followed by a change of the found stake
does to the list. -/
def changeStake (address : Text) (change : UInt64 → Result UInt64) : List Validator → Result (List Validator)
  | [] => .error (.error "Validator was not found")
  | v :: rest =>
    if v.address = address then do
      let stake ← change v.stake
      return { v with stake } :: rest
    else do
      let rest ← changeStake address change rest
      return v :: rest

/-- The addition is not checked and wraps in a release build. -/
def increaseStake (self : Consensus) (address : Text) (amount : UInt64) : Result Consensus := do
  let validators ← changeStake address (fun stake => return stake + amount) self.validators
  return { validators }

def decreaseStake (self : Consensus) (address : Text) (amount : UInt64) : Result Consensus := do
  let withdraw := fun stake : UInt64 => do
    rejectIf (stake < amount) "Insufficient stake"
    return stake - amount
  let validators ← changeStake address withdraw self.validators
  return { validators }

def getValidator (self : Consensus) (address : Text) : Option Validator :=
  self.validators.find? fun v => v.address == address

/-- The sum is taken without a check and wraps in a release build. -/
def totalStake (self : Consensus) : UInt64 :=
  self.validators.foldl (fun total v => total + v.stake) 0

/-- The loop of `select_validator`: `current` is the running stake. -/
def selectFrom (target : UInt64) : UInt64 → List Validator → Option Validator
  | _, [] => none
  | current, validator :: rest =>
    if target < current + validator.stake then some validator
    else selectFrom target (current + validator.stake) rest

def selectValidator (self : Consensus) (value : UInt64) : Option Validator :=
  if self.totalStake = 0 then none
  else selectFrom (value % self.totalStake) 0 self.validators

/-- `u64::from_be_bytes`. -/
def u64FromBeBytes (bytes : Bytes) : UInt64 :=
  bytes.foldl (fun n byte => n * 256 + UInt64.ofNat byte.toNat) 0

def selectValidatorFromHash [Crypto] (self : Consensus) (previousHash : Text) : Option Validator :=
  self.selectValidator (u64FromBeBytes ((Crypto.sha256 previousHash).val.take 8))

def isValidatorAllowed (self : Consensus) (address : Text) : Bool :=
  self.validators.any fun v => v.address == address

end Consensus

end Kybernetes
