import MergedMining.Proofs.MerkleInclusion

/-! A branch may be folded in two parts. The second part starts from the node that the first one leads
to, with the sides that are left in the mask, which is a plain pattern of 32 bits whatever its sign. -/
namespace MergedMining.Merkle

/-- The node that a list of siblings leads to. The lowest bit of `sides` is for the first sibling. -/
def climb (sides : Nat) (node : Hash256) : List Hash256 → Hash256
  | [] => node
  | sibling :: rest => climb (sides >>> 1) (.hash (join (sides.testBit 0) node sibling)) rest

theorem climb_append (sides : Nat) (node : Hash256) (below above : List Hash256) :
    climb sides node (below ++ above) =
      climb (sides >>> below.length) (climb sides node below) above := by
  induction below generalizing sides node with
  | nil => rfl
  | cons sibling rest ih =>
    rw [List.cons_append, climb, ih, ← Nat.shiftRight_add, Nat.add_comm 1]
    rfl

theorem climb_concat (sides : Nat) (node last : Hash256) (hashes : List Hash256) :
    climb sides node (hashes ++ [last]) =
      .hash (join (sides.testBit hashes.length) (climb sides node hashes) last) := by
  rw [climb_append, climb, climb, Nat.testBit_shiftRight, Nat.add_zero]

/-- With no sides left, every node is a left child. -/
theorem climb_zero (node : Hash256) (hashes : List Hash256) :
    climb 0 node hashes = hashes.foldl .combine node := by
  induction hashes generalizing node with
  | nil => rfl
  | cons sibling rest ih =>
    have hjoin : Hash256.hash (join (Nat.testBit 0 0) node sibling) = .combine node sibling := rfl
    rw [climb, hjoin, Nat.zero_shiftRight, ih, List.foldl_cons]

namespace Branch

/-- What is left of the sides behind the lowest `k` levels: no copy of the sign bit moves in. -/
def sidesAbove (mask : Int32) (k : Nat) : Int32 := .ofBitVec (mask.toBitVec >>> k)

theorem toNat_sidesAbove (mask : Int32) (k : Nat) :
    (sidesAbove mask k).toUInt32.toNat = mask.toUInt32.toNat >>> k :=
  BitVec.toNat_ushiftRight mask.toBitVec k

theorem sidesAbove_of_le (mask : Int32) {k : Nat} (hk : 32 ≤ k) : sidesAbove mask k = 0 := by
  have hzero : mask.toBitVec >>> k = 0#32 := BitVec.ushiftRight_eq_zero hk
  rw [sidesAbove, hzero]
  rfl

/-- The induction takes the siblings off from the top, where the mask stays the same. -/
theorem rootFrom_eq_climb (hashes : List Hash256) (mask : Int32) (leaf : Hash256) :
    rootFrom ⟨hashes, mask⟩ leaf = climb mask.toUInt32.toNat leaf hashes := by
  induction hashes using List.reverseRecOn with
  | nil => rfl
  | append_singleton hashes last ih =>
    rw [rootFrom_concat, climb_concat, ih, onRight_eq_testBit]

/-- Masks that send every level to the same side are the same to a branch. -/
theorem rootFrom_congr {hashes : List Hash256} {mask mask' : Int32} (leaf : Hash256)
    (h : ∀ j < hashes.length, onRight mask j = onRight mask' j) :
    rootFrom ⟨hashes, mask⟩ leaf = rootFrom ⟨hashes, mask'⟩ leaf := by
  induction hashes using List.reverseRecOn with
  | nil => simp [rootFrom]
  | append_singleton hashes last ih =>
    have hlen : (hashes ++ [last]).length = hashes.length + 1 := by simp
    rw [hlen] at h
    have hbelow := ih fun j hj => h j (Nat.lt_succ_of_lt hj)
    rw [rootFrom_concat, rootFrom_concat, hbelow, h _ (Nat.lt_succ_self _)]

theorem onRight_eq_of_mod_eq {mask mask' : Int32} {n j : Nat} (hj : j < n)
    (h : mask.toUInt32.toNat % 2 ^ min n 32 = mask'.toUInt32.toNat % 2 ^ min n 32) :
    onRight mask j = onRight mask' j := by
  by_cases hlow : j < 32
  · have hbit := congrArg (Nat.testBit · j) h
    simpa [Nat.testBit_mod_two_pow, hj, hlow, onRight_eq_testBit] using hbit
  · simp [onRight, hlow]

/-- A branch leads where its upper part leads from the node that its lower part leads to, with the mask
shifted down by the length of the lower part. From level 32 on nothing is left of the mask, and every
node is a left child. What the mask says is its pattern of bits, negative or not, and of these only as
many as there are levels. -/
theorem rootFrom_append (mask : Int32) (leaf : Hash256) (below above : List Hash256) :
    rootFrom ⟨below ++ above, mask⟩ leaf =
        rootFrom ⟨above, sidesAbove mask below.length⟩ (rootFrom ⟨below, mask⟩ leaf) ∧
    (32 ≤ below.length → sidesAbove mask below.length = 0 ∧
      rootFrom ⟨below ++ above, mask⟩ leaf = above.foldl .combine (rootFrom ⟨below, mask⟩ leaf)) ∧
    rootFrom ⟨below, mask⟩ leaf = climb mask.toUInt32.toNat leaf below ∧
    ∀ mask' : Int32, mask.toUInt32.toNat % 2 ^ min below.length 32 =
        mask'.toUInt32.toNat % 2 ^ min below.length 32 →
      rootFrom ⟨below, mask⟩ leaf = rootFrom ⟨below, mask'⟩ leaf := by
  have hsplit : rootFrom ⟨below ++ above, mask⟩ leaf =
      rootFrom ⟨above, sidesAbove mask below.length⟩ (rootFrom ⟨below, mask⟩ leaf) := by
    rw [rootFrom_eq_climb, rootFrom_eq_climb, rootFrom_eq_climb, toNat_sidesAbove, climb_append]
  refine ⟨hsplit, ?_, rootFrom_eq_climb below mask leaf, ?_⟩
  · intro hlen
    have hzero := sidesAbove_of_le mask hlen
    refine ⟨hzero, ?_⟩
    rw [hsplit, hzero, rootFrom_eq_climb]
    exact climb_zero _ above
  · intro mask' h
    exact rootFrom_congr leaf fun j hj => onRight_eq_of_mod_eq hj h

/-- All sides set: the sign bit is for level 31, and level 32 has no side of its own. -/
theorem rootFrom_append_minusOne :
    let below := List.replicate 32 Hash256.zero
    let short := [Hash256.ofNat 1, .ofNat 2]
    rootFrom ⟨List.replicate 31 .zero ++ short, -1⟩ .zero =
        rootFrom ⟨short, 1⟩ (rootFrom ⟨List.replicate 31 .zero, -1⟩ .zero) ∧
      32 ≤ below.length ∧
      rootFrom ⟨below ++ [.ofNat 1], -1⟩ .zero = .combine (rootFrom ⟨below, -1⟩ .zero) (.ofNat 1) ∧
      (-1 : Int32).toUInt32.toNat % 2 ^ min short.length 32 =
        (3 : Int32).toUInt32.toNat % 2 ^ min short.length 32 ∧
      rootFrom ⟨short, -1⟩ .zero = rootFrom ⟨short, 3⟩ .zero := by
  intro below short
  have hlen : 32 ≤ below.length := by decide
  have hlow : (-1 : Int32).toUInt32.toNat % 2 ^ min short.length 32 =
      (3 : Int32).toUInt32.toNat % 2 ^ min short.length 32 := by decide
  obtain ⟨hsplit, -, -, -⟩ := rootFrom_append (-1) .zero (List.replicate 31 .zero) short
  obtain ⟨-, habove, -, -⟩ := rootFrom_append (-1) .zero below [.ofNat 1]
  obtain ⟨-, -, -, hmask⟩ := rootFrom_append (-1) .zero short []
  exact ⟨hsplit, hlen, (habove hlen).2, hlow, hmask 3 hlow⟩

end Branch

end MergedMining.Merkle
