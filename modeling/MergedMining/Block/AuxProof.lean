import MergedMining.Block.Header
import MergedMining.Merkle.Tree
import MergedMining.Transaction.Format

/-! The formats of headers and transactions, and auxiliary proofs in such a format: how a block of a
parent chain committed to a block of this one. -/
namespace MergedMining

/-- The formats of the headers and transactions inside a block. -/
structure Codec (T H : Type) where
  /-- No encoded transaction is shorter. A count of transactions that cannot fit is refused. -/
  minTransactionSize : Nat := 1
  decodeHeader : Decoder H
  decodeTransaction : Decoder T

namespace Codec

variable {T H : Type}

def wireCounting (count : Decoder.CountReader) : Codec Transaction Header where
  minTransactionSize := Transaction.minSize
  decodeHeader := Header.decode
  decodeTransaction := Transaction.decodeCounting count

/-- The formats shared by a chain and its parent chains. -/
def wire : Codec Transaction Header := wireCounting .count

/-- The same codec with `f` applied to every error of its decoders. -/
def mapError (f : DecodeError → DecodeError) (codec : Codec T H) : Codec T H :=
  { codec with
    decodeHeader := codec.decodeHeader.mapError f
    decodeTransaction := codec.decodeTransaction.mapError f }

end Codec

structure AuxProof (T H : Type) where
  /-- The coinbase of the parent block, which carries the commitment. -/
  coinbaseTx : T
  /-- The hash of the parent block as the miner recorded it. -/
  blockHash : Hash256
  /-- From the coinbase to the merkle root of the parent block. -/
  coinbaseBranch : Merkle.Branch
  /-- From the hash of this block to the root that the coinbase commits to. -/
  blockchainBranch : Merkle.Branch
  parentHeader : H
deriving DecidableEq, Repr

namespace AuxProof

variable {T H : Type}

def decodeCounting (count : Decoder.CountReader) (codec : Codec T H) : Decoder (AuxProof T H) := do
  let coinbaseTx ← codec.decodeTransaction
  let blockHash ← .hash "auxpow.block_hash"
  let coinbaseBranch ← Merkle.Branch.decodeCounting count
  let blockchainBranch ← Merkle.Branch.decodeCounting count
  let parentHeader ← codec.decodeHeader
  .report (.auxProofDecoded coinbaseBranch.hashes.length blockchainBranch.hashes.length)
  return { coinbaseTx, blockHash, coinbaseBranch, blockchainBranch, parentHeader }

def decodeWith (codec : Codec T H) : Decoder (AuxProof T H) := decodeCounting .count codec

def decode : Decoder (AuxProof Transaction Header) := decodeWith .wire

/-- Appends the encoding to what is there already. -/
def encodeInto (out : List UInt8) (a : AuxProof Transaction Header) : List UInt8 :=
  let start := out ++ a.coinbaseTx.encode ++ a.blockHash.bytes
  a.blockchainBranch.encodeInto (a.coinbaseBranch.encodeInto start) ++ a.parentHeader.encode

end AuxProof

end MergedMining
