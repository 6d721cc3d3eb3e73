import MergedMining.Decoder.VarInt

/-! Merkle trees: the root of a list of hashes, and branches, the siblings on the path from a leaf to
the root. -/
namespace MergedMining.Merkle

/-- One level up. The last node of an odd level is combined with itself. -/
def parents : List Hash256 → List Hash256
  | left :: right :: rest => .combine left right :: parents rest
  | [last] => [.combine last last]
  | [] => []

theorem length_parents (level : List Hash256) : (parents level).length = (level.length + 1) / 2 := by
  fun_induction parents level with
  | case1 left right rest ih => simp only [List.length_cons, ih]; omega
  | case2 last => simp
  | case3 => simp

/-- Zero for no hashes. -/
def root : List Hash256 → Hash256
  | [] => .zero
  | [node] => node
  | left :: right :: rest => root (parents (left :: right :: rest))
termination_by level => level.length
decreasing_by
  rw [length_parents]
  simp only [List.length_cons]
  omega

structure Branch where
  /-- The siblings from the leaf upwards. -/
  hashes : List Hash256
  /-- Bit `i` says that the node at level `i` of the path is the right child. -/
  sideMask : Int32
deriving DecidableEq, Repr

namespace Branch

/-- The length of one hash of the list. -/
def hashSize : Nat := 32

def decodeCounting (count : Decoder.CountReader) : Decoder Branch := do
  let n ← count "merkle_branch.count" hashSize
  let hashes ← .times n (.hash "merkle_branch.hash")
  let sideMask ← .int32 "merkle_branch.side_mask"
  .report (.branchDecoded n sideMask)
  return { hashes, sideMask }

def decode : Decoder Branch := decodeCounting .count

/-- Appends the encoding to what is there already. -/
def encodeInto (out : List UInt8) (m : Branch) : List UInt8 :=
  out ++ VarInt.encodeLength m.hashes ++ m.hashes.flatMap Hash256.bytes
    ++ LittleEndian.encodeInt32 m.sideMask

def encode (m : Branch) : List UInt8 := m.encodeInto []

theorem encodeInto_eq_append (out : List UInt8) (m : Branch) :
    m.encodeInto out = out ++ m.encode := by
  simp [encode, encodeInto]

/-- The mask has 32 bits; at any later level the node is the left child. -/
def onRight (sideMask : Int32) (level : Nat) : Bool :=
  level < 32 && (sideMask >>> Int32.ofNat level) &&& 1 == 1

/-- The root that the branch gives to `leaf`. -/
def rootFrom (m : Branch) (leaf : Hash256) : Hash256 :=
  m.hashes.zipIdx.foldl
    (fun node (sibling, level) =>
      if onRight m.sideMask level then .combine sibling node else .combine node sibling)
    leaf

end Branch

end MergedMining.Merkle
