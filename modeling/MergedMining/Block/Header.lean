import MergedMining.Decoder.VarInt

/-! Block headers: 80 bytes, in the same layout on a chain and on the parent chains it is mined
with. -/
namespace MergedMining

/-- Gives the version of a header, in which a block says whether it is merge-mined. -/
class Versioned (H : Type) where
  version : H → Int32

/-- The bit of the version that announces an auxiliary proof. -/
def auxpowFlag : Int32 := 0x0100

def hasAuxpowFlag (version : Int32) : Bool := version &&& auxpowFlag != 0

structure Header where
  version : Int32
  prevBlockHash : Hash256
  merkleRoot : Hash256
  /-- In seconds of Unix time. -/
  timestamp : UInt32
  /-- The difficulty target in its compact form. -/
  bits : UInt32
  nonce : UInt32
deriving DecidableEq, Repr

namespace Header

instance : Versioned Header := ⟨version⟩

/-- The length of an encoded header. -/
def size : Nat := 80

def decode : Decoder Header := do
  let version ← .int32 "header.version"
  let prevBlockHash ← .hash "header.prev_block_hash"
  let merkleRoot ← .hash "header.merkle_root"
  let timestamp ← .uint32 "header.timestamp"
  let bits ← .uint32 "header.bits"
  let nonce ← .uint32 "header.nonce"
  return { version, prevBlockHash, merkleRoot, timestamp, bits, nonce }

def encode (h : Header) : List UInt8 :=
  LittleEndian.encodeInt32 h.version ++ h.prevBlockHash.bytes ++ h.merkleRoot.bytes
    ++ LittleEndian.encodeUInt32 h.timestamp ++ LittleEndian.encodeUInt32 h.bits
    ++ LittleEndian.encodeUInt32 h.nonce

@[simp] theorem length_encode (h : Header) : h.encode.length = size := by
  simp [encode, size, LittleEndian.encodeInt32, LittleEndian.encodeUInt32, Hash256.length_bytes]

/-- Identifies the block. It is not the hash that proves the work. -/
def hash (h : Header) : Hash256 := .hash h.encode

def isAuxpow (h : Header) : Bool := hasAuxpowFlag h.version

/-- The upper half of the version. -/
def chainId (h : Header) : UInt16 := (h.version.toUInt32 >>> 16).toUInt16

/-- The version without chain id and flag. -/
def baseVersion (h : Header) : Int32 := h.version &&& 0xff

end Header

end MergedMining
