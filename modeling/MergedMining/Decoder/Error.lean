import MergedMining.Bytes.Notation

/-! The ways in which reading a block can fail. -/
namespace MergedMining

/-- A value breaks a rule of the format. -/
inductive FormatError where
  /-- The value fits a shorter form than the one its marker announces. -/
  | nonCanonicalVarInt (marker : UInt8) (value : UInt64)
  | countTooLarge (field : String) (count : UInt64)
  | trailingBytes (count : Nat)
  /-- The flag after a witness marker is not one. -/
  | invalidWitnessFlag (flag : UInt8)
  /-- The witness layout is used although every witness stack is empty. -/
  | superfluousWitness
  | invalidHex (reason : String)
deriving DecidableEq, Repr

namespace FormatError

def hexByte (b : UInt8) : String := "0x" ++ Hex.encode [b]

def message : FormatError → String
  | .nonCanonicalVarInt marker value =>
    s!"non-canonical varint: {value} encoded with marker {hexByte marker}"
  | .countTooLarge field count => s!"count prefix for {field} is too large: {count}"
  | .trailingBytes count => s!"{count} trailing bytes after block"
  | .invalidWitnessFlag flag => s!"invalid witness flag: {hexByte flag}"
  | .superfluousWitness => "superfluous witness record"
  | .invalidHex reason => s!"invalid hex: {reason}"

end FormatError

inductive DecodeError where
  /-- The field needs more bytes than are left. -/
  | truncatedInput (field : String) (needed remaining : Nat)
  | format (error : FormatError)
  /-- A delegated decoder failed. -/
  | collaborator (cause : DecodeError)
  /-- A delegated decoder refused its input for a reason of its own. -/
  | refused (reason : String)
deriving DecidableEq, Repr

namespace DecodeError

def message : DecodeError → String
  | .truncatedInput field needed remaining =>
    s!"truncated input reading {field}: needed {needed} bytes, {remaining} remaining"
  | .format error => s!"format error: {error.message}"
  | .collaborator cause => s!"collaborator decoder failed: {cause.message}"
  | .refused reason => s!"collaborator decoder failed: {reason}"

/-- The messages of the causes behind an error, the nearest first. -/
def sources : DecodeError → List String
  | .truncatedInput .. => []
  | .format error => [error.message]
  | .collaborator cause => cause.message :: cause.sources
  | .refused reason => [reason]

def isTruncated : DecodeError → Bool
  | .truncatedInput .. => true
  | _ => false

end DecodeError

end MergedMining
