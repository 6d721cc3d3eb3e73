import MergedMining.Decoder.Error
import MergedMining.Bytes.Notation
import MergedMining.Hash.Sha256

/-! 32-byte hashes. They are kept in wire order and shown with their bytes reversed. -/
namespace MergedMining

@[ext] structure Hash256 where
  bytes : List UInt8
  length_bytes : bytes.length = 32
deriving DecidableEq

def doubleSha256 (data : List UInt8) : List UInt8 := Sha256.digest (Sha256.digest data)

namespace Hash256

/-- The hash shown as the hexadecimal digits of `n`. -/
def ofNat (n : Nat) : Hash256 := ⟨LittleEndian.encode 32 n, LittleEndian.length_encode 32 n⟩

def zero : Hash256 := ofNat 0

instance : Inhabited Hash256 := ⟨zero⟩

/-- The double SHA-256 of `data`. -/
def hash (data : List UInt8) : Hash256 := ⟨doubleSha256 data, by simp [doubleSha256]⟩

/-- The hash of an inner node of a merkle tree. -/
def combine (left right : Hash256) : Hash256 := hash (left.bytes ++ right.bytes)

def ofBytes? (bytes : List UInt8) : Option Hash256 :=
  if h : bytes.length = 32 then some ⟨bytes, h⟩ else none

instance : Ord Hash256 := ⟨fun a b => compare a.bytes b.bytes⟩

/-- In the order of the wire bytes. -/
def sort (hashes : List Hash256) : List Hash256 := hashes.mergeSort fun a b => (compare a b).isLE

def display (h : Hash256) : String := Hex.encode h.bytes.reverse

instance : ToString Hash256 := ⟨display⟩

/-- The display form under the name of the type. -/
def describe (h : Hash256) : String := s!"Hash256({h.display})"

instance : Repr Hash256 := ⟨fun h _ => h.describe⟩

def ofDisplay (s : String) : Except FormatError Hash256 :=
  match Hex.decode s with
  | .error e => .error (.invalidHex e.message)
  | .ok bytes =>
    match ofBytes? bytes.reverse with
    | some hash => .ok hash
    | none => .error (.invalidHex s!"hash must be 32 bytes, got {bytes.length}")

end Hash256

end MergedMining
