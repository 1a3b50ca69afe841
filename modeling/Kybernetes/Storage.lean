import Kybernetes.Base.Result
import Kybernetes.Core

namespace Kybernetes

/-- What the chain file of a data directory holds. Its JSON text is kept as
the chain it decodes to. -/
inductive ChainFile
  | missing
  | unreadable (error : String)
  | empty
  | invalidJson (error : String)
  | blocks (chain : List Block)
deriving DecidableEq, Repr

/-- How the file system answers the write of a chain file: the new file
replaces the old one atomically, or the old one stays. -/
abbrev WriteAnswer := Except String Unit

namespace Storage

def saveBlockchainTo (answer : WriteAnswer) (file : ChainFile) (chain : List Block) : Result Unit × ChainFile :=
  if chain = [] then (.error (.error "Empty blockchain cannot be saved"), file)
  else
    match answer with
    | .error error => (.error (.error error), file)
    | .ok () => (.ok (), .blocks chain)

def loadBlockchainFrom (file : ChainFile) : Result (Option (List Block)) :=
  match file with
  | .missing => .ok none
  | .unreadable error => .error (.error ("Blockchain file could not be opened: " ++ error))
  | .empty => .error (.error "Blockchain file is empty")
  | .invalidJson error => .error (.error ("Blockchain file contains invalid JSON: " ++ error))
  | .blocks chain => if chain = [] then .error (.error "Stored blockchain is empty") else .ok (some chain)

end Storage

end Kybernetes
