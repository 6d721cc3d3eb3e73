import MergedMining.Block.AuxProof
import MergedMining.Merkle.Tree
import MergedMining.Text.Conversion

/-! Blocks that may be merge-mined: a header, an auxiliary proof if the version announces one, and the
transactions behind their count. Reading a block is purely structural: neither the work nor a branch
nor a hash is checked. -/
namespace MergedMining

structure Block (T H : Type) where
  header : H
  auxPow : Option (AuxProof T H)
  transactions : List T
deriving DecidableEq, Repr

/-- A result together with the events on the way to it. -/
structure Outcome (α : Type) where
  result : Except DecodeError α
  events : List Event

namespace Block

section Codec

variable {T H : Type}

def decodeCounting [Versioned H] (count : Decoder.CountReader) (codec : Codec T H) :
    Decoder (Block T H) := do
  let header ← codec.decodeHeader
  let version := Versioned.version header
  let auxPow ←
    if hasAuxpowFlag version then some <$> AuxProof.decodeCounting count codec else pure none
  let n ← count "block.tx_count" codec.minTransactionSize
  let transactions ← .times n codec.decodeTransaction
  .report (.blockDecoded version auxPow.isSome n)
  return { header, auxPow, transactions }

/-- Leaves the cursor behind the last transaction. -/
def decodeWith [Versioned H] (codec : Codec T H) : Decoder (Block T H) :=
  decodeCounting .count codec

def isAuxpow (b : Block T H) : Bool := b.auxPow.isSome

end Codec

def decode : Decoder (Block Transaction Header) := decodeWith .wire

/-- Reads a block that takes up the whole input. -/
def ofBytes (data : List UInt8) : Outcome (Block Transaction Header) :=
  match decode (.ofBytes data) with
  | ⟨.error e, c, events, _⟩ => ⟨.error e, events ++ [.blockFailed c.position e]⟩
  | ⟨.ok block, c, events, _⟩ =>
    if c.isEmpty then ⟨.ok block, events⟩
    else ⟨.error (.format (.trailingBytes c.remaining)), events ++ [.trailingBytes c.remaining]⟩

/-- Blanks around the digits are ignored. A text that is no hexadecimal is refused without an event. -/
def ofHex (s : String) : Outcome (Block Transaction Header) :=
  match Hex.decode (.ofList (Text.trim s.toList)) with
  | .error e => ⟨.error (.format (.invalidHex e.message)), []⟩
  | .ok data => ofBytes data

def encode (b : Block Transaction Header) : List UInt8 :=
  let start := match b.auxPow with
    | none => b.header.encode
    | some aux => aux.encodeInto b.header.encode
  start ++ VarInt.encodeLength b.transactions ++ b.transactions.flatMap Transaction.encode

def hash (b : Block Transaction Header) : Hash256 := b.header.hash

/-- Recomputed from the transactions. -/
def merkleRoot (b : Block Transaction Header) : Hash256 :=
  Merkle.root (b.transactions.map Transaction.txid)

end Block

end MergedMining
