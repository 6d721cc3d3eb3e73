import MergedMining.Decoder.Error

/-! What decoding reports on the way, apart from its result. -/
namespace MergedMining

inductive Level where
  | trace | debug
deriving DecidableEq, Repr

inductive Event where
  | branchDecoded (count : Nat) (sideMask : Int32)
  /-- With the number of hashes in either branch. -/
  | auxProofDecoded (coinbaseBranch blockchainBranch : Nat)
  | blockDecoded (version : Int32) (auxpow : Bool) (txCount : Nat)
  | blockFailed (position : Nat) (error : DecodeError)
  | trailingBytes (count : Nat)
deriving DecidableEq, Repr

namespace Event

def level : Event → Level
  | .branchDecoded .. | .auxProofDecoded .. => .trace
  | .blockDecoded .. | .blockFailed .. | .trailingBytes .. => .debug

def message : Event → String
  | .branchDecoded .. => "decoded merkle branch"
  | .auxProofDecoded .. => "decoded auxpow header"
  | .blockDecoded .. => "decoded block"
  | .blockFailed .. => "block decode failed"
  | .trailingBytes .. => "block followed by trailing bytes"

/-- The named values of an event as texts, in the order in which they are written. -/
def fields : Event → List (String × String)
  | .branchDecoded count sideMask => [("count", toString count), ("side_mask", toString sideMask)]
  | .auxProofDecoded coinbaseBranch blockchainBranch =>
    [("coinbase_branch", toString coinbaseBranch), ("blockchain_branch", toString blockchainBranch)]
  | .blockDecoded version auxpow txCount =>
    [("version", toString version), ("auxpow", toString auxpow), ("tx_count", toString txCount)]
  | .blockFailed position error => [("position", toString position), ("error", error.message)]
  | .trailingBytes count => [("trailing", toString count)]

end Event

def Level.name : Level → String
  | .trace => "TRACE"
  | .debug => "DEBUG"

end MergedMining
