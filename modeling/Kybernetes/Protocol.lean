import Kybernetes.Base.Hex

namespace Kybernetes

/-- A `String` of the program, as the bytes of its UTF-8 form. Every operation
of the modelled code on strings (length, equality, hashing, digit tests) is
one on these bytes. -/
abbrev Text := Bytes

/-- The bytes of a string literal. -/
def str (literal : String) : Text :=
  literal.toList.flatMap String.utf8EncodeChar

/-- A text shown inside an error message. -/
def Text.display (text : Text) : String :=
  String.ofList (text.map fun byte => Char.ofNat byte.toNat)

def maxFutureDriftSeconds : UInt64 := 120

def maxMempoolTransactions : Nat := 10000

def maxSyncBlocksPerMessage : Nat := 256

def maxNormalTransactionsPerBlock : Nat := 1000
def maxTotalTransactionsPerBlock : Nat := maxNormalTransactionsPerBlock + 1

def hashHexLength : Nat := 64
def addressHexLength : Nat := 64
def publicKeyHexLength : Nat := 64
def signatureHexLength : Nat := 128

def systemAddress : Text := str "SYSTEM"
def systemPublicKey : Text := str "SYSTEM"
def systemRewardSignature : Text := str "SYSTEM_REWARD"

def genesisPreviousHash : Text := str "0"
def genesisValidator : Text := str "GENESIS"

def networkId : Text := str "kybernetes-mainnet-v2"
def networkProtocolVersion : UInt32 := 2

def genesisTimestamp : UInt64 := 1754690000
def genesisSupplyMicroKbn : UInt64 := 1000000000

def genesisValidatorAAddress : Text :=
  str "66e0a6e68b5d5f2f01c42d4f5bcc32ff475917d29a84891a564281d06dac0194"
def genesisValidatorAStake : UInt64 := 700
def genesisValidatorAAllocationMicroKbn : UInt64 := genesisSupplyMicroKbn

def genesisValidatorBAddress : Text :=
  str "fe36b693330e3e48ae0ed1a78f92e38a99eb228bc3d3ab617ac70d75b28f5e78"
def genesisValidatorBStake : UInt64 := 300
def genesisValidatorBAllocationMicroKbn : UInt64 := 0

def maxSupplyMicroKbn : UInt64 := 100000000 * 1000000
def blockRewardMicroKbn : UInt64 := 10 * 1000000
def minTransactionFeeMicroKbn : UInt64 := 10
def transactionFeeDivisor : UInt64 := 100000
def validatorFeePercent : UInt64 := 15
def liquidityReserveFeePercent : UInt64 := 80
def treasuryFeePercent : UInt64 := 5
def burnFeePercent : UInt64 := 0

/-- `value` has exactly `expectedLength` hex digits, of either case. -/
def isFixedHex (value : Text) (expectedLength : Nat) : Bool :=
  value.length == expectedLength && value.all isHexDigit

theorem isFixedHex_length {value : Text} {expectedLength : Nat}
    (fixed : isFixedHex value expectedLength = true) : value.length = expectedLength := by
  simp only [isFixedHex, Bool.and_eq_true, beq_iff_eq] at fixed
  exact fixed.1

theorem isFixedHex_hexEncode {length : Nat} (bytes : FixedBytes length) :
    isFixedHex (hexEncode bytes.val) (2 * length) = true := by
  simp only [isFixedHex, Bool.and_eq_true, beq_iff_eq, List.all_eq_true, hexEncode_length, bytes.property,
    true_and]
  exact fun _ member => hexEncode_isHexDigit member

end Kybernetes
