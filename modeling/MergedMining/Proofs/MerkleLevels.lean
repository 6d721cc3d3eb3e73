import Mathlib
import MergedMining.Merkle.Tree

/-! The levels of a merkle tree from the leaves up to the root, and the strings that are hashed on the
way from one level to the next. -/
namespace MergedMining

/-- Two different strings with one digest. -/
structure Collision (x y : List UInt8) : Prop where
  ne : x ≠ y
  doubleSha256_eq : doubleSha256 x = doubleSha256 y

namespace Merkle

/-- The bytes of a node and its sibling, as they are hashed for the node above them. -/
def join (onRight : Bool) (node sibling : Hash256) : List UInt8 :=
  if onRight then sibling.bytes ++ node.bytes else node.bytes ++ sibling.bytes

@[simp] theorem length_join (onRight : Bool) (node sibling : Hash256) :
    (join onRight node sibling).length = 64 := by
  cases onRight <;> simp [join, Hash256.length_bytes]

theorem join_inj {onRight : Bool} {node node' sibling sibling' : Hash256}
    (h : join onRight node sibling = join onRight node' sibling') :
    node = node' ∧ sibling = sibling' := by
  have hlen (a b : Hash256) : a.bytes.length = b.bytes.length := by
    rw [a.length_bytes, b.length_bytes]
  cases onRight with
  | false =>
    obtain ⟨hn, hs⟩ := List.append_inj h (hlen _ _)
    exact ⟨Hash256.ext hn, Hash256.ext hs⟩
  | true =>
    obtain ⟨hs, hn⟩ := List.append_inj h (hlen _ _)
    exact ⟨Hash256.ext hn, Hash256.ext hs⟩

/-- Nodes with the same parent are the same, or else the digest has a collision there. -/
theorem join_inj_or_collision {onRight : Bool} {node node' sibling sibling' : Hash256}
    (h : Hash256.hash (join onRight node sibling) = .hash (join onRight node' sibling')) :
    (node = node' ∧ sibling = sibling') ∨
      Collision (join onRight node sibling) (join onRight node' sibling') := by
  by_cases he : join onRight node sibling = join onRight node' sibling'
  · exact .inl (join_inj he)
  · exact .inr ⟨he, congrArg Hash256.bytes h⟩

theorem add_two_xor_one (k : Nat) : (k + 2) ^^^ 1 = (k ^^^ 1) + 2 := by
  obtain h | h := Nat.even_or_odd k
  · have h' : Even (k + 2) := h.add (by decide)
    rw [Nat.xor_one_of_even h, Nat.xor_one_of_even h']
  · have h' : Odd (k + 2) := h.add_even (by decide)
    have := h.pos
    rw [Nat.xor_one_of_odd h, Nat.xor_one_of_odd h']
    omega

/-- The node beside node `k` of a level, or node `k` itself where there is none. -/
def sibling (level : List Hash256) (k : Nat) : Hash256 :=
  level.getD (k ^^^ 1) (level.getD k .zero)

/-- A node and its sibling are hashed for the node above both. -/
theorem hash_join_sibling {level : List Hash256} {k : Nat} (hk : k < level.length) :
    Hash256.hash (join (k.testBit 0) (level.getD k .zero) (sibling level k)) =
      (parents level).getD (k / 2) .zero := by
  fun_induction parents level generalizing k with
  | case1 left right rest ih =>
    cases k with
    | zero => rfl
    | succ k =>
      cases k with
      | zero => rfl
      | succ k =>
        -- Two nodes further on, the node above is one further on.
        have hsib : sibling (left :: right :: rest) (k + 2) = sibling rest k := by
          simp [sibling, add_two_xor_one]
        have hbit : (k + 2).testBit 0 = k.testBit 0 := by simp
        have hdiv : (k + 2) / 2 = k / 2 + 1 := by omega
        rw [hsib, hbit, hdiv]
        exact ih (by simpa using hk)
  | case2 last =>
    obtain rfl : k = 0 := by simpa using hk
    rfl
  | case3 => simp at hk

theorem parents_eq_nil {level : List Hash256} : parents level = [] ↔ level = [] := by
  cases level using parents.fun_cases <;> simp [parents]

/-- A cut between two pairs is a cut between their parents. -/
theorem parents_take (level : List Hash256) (n : Nat) :
    parents (level.take (2 * n)) = (parents level).take n := by
  fun_induction parents level generalizing n with
  | case1 left right rest ih =>
    cases n with
    | zero => rfl
    | succ n =>
      rw [Nat.mul_succ, List.take_succ_cons, List.take_succ_cons, parents, ih, List.take_succ_cons]
  | case2 last => cases n <;> simp [Nat.mul_succ, parents]
  | case3 => simp [parents]

theorem parents_drop (level : List Hash256) (n : Nat) :
    parents (level.drop (2 * n)) = (parents level).drop n := by
  fun_induction parents level generalizing n with
  | case1 left right rest ih =>
    cases n with
    | zero => rfl
    | succ n => rw [Nat.mul_succ, List.drop_succ_cons, List.drop_succ_cons, ih, List.drop_succ_cons]
  | case2 last => cases n <;> simp [Nat.mul_succ, parents]
  | case3 => simp [parents]

theorem parents_append {left : List Hash256} (h : Even left.length) (right : List Hash256) :
    parents (left ++ right) = parents left ++ parents right := by
  obtain ⟨n, hn⟩ := h
  rw [← Nat.two_mul] at hn
  rw [← List.take_append_drop n (parents (left ++ right)), ← parents_take, ← parents_drop, ← hn,
    List.take_left, List.drop_left]

/-- The nodes `j` levels above the leaves. -/
def levelAt (leaves : List Hash256) : Nat → List Hash256
  | 0 => leaves
  | j + 1 => parents (levelAt leaves j)

/-- How many times the nodes are paired until one is left. -/
def depth : List Hash256 → Nat
  | left :: right :: rest => depth (parents (left :: right :: rest)) + 1
  | _ => 0
termination_by level => level.length
decreasing_by
  rw [length_parents]
  simp only [List.length_cons]
  omega

theorem depth_pos {leaves : List Hash256} : 0 < depth leaves ↔ 1 < leaves.length := by
  cases leaves using root.fun_cases <;> simp [depth]

theorem depth_parents (leaves : List Hash256) : depth (parents leaves) = depth leaves - 1 := by
  cases leaves using root.fun_cases with
  | case1 => simp [depth, parents]
  | case2 node => simp [depth, parents]
  | case3 left right rest =>
    conv_rhs => rw [depth]
    rfl

/-- Every pairing halves the number of nodes and rounds it up. -/
theorem depth_eq_clog (leaves : List Hash256) : depth leaves = Nat.clog 2 leaves.length := by
  induction leaves using root.induct with
  | case1 => simp [depth]
  | case2 node => simp [depth]
  | case3 left right rest ih =>
    have htwo : 2 ≤ (left :: right :: rest).length := by simp
    rw [depth, ih, length_parents, Nat.clog_of_two_le Nat.one_lt_two htwo]
    rfl

theorem depth_le_iff {leaves : List Hash256} {d : Nat} :
    depth leaves ≤ d ↔ leaves.length ≤ 2 ^ d := by
  rw [depth_eq_clog]
  exact Nat.clog_le_iff_le_pow Nat.one_lt_two

theorem lt_depth_iff {leaves : List Hash256} {d : Nat} :
    d < depth leaves ↔ 2 ^ d < leaves.length := by
  rw [← not_le, depth_le_iff, not_le]

theorem levelAt_parents (leaves : List Hash256) (j : Nat) :
    levelAt (parents leaves) j = levelAt leaves (j + 1) := by
  induction j with
  | zero => rfl
  | succ j ih => simp only [levelAt, ih]

/-- The top level holds the root and nothing else. -/
theorem levelAt_depth {leaves : List Hash256} (h : leaves ≠ []) :
    levelAt leaves (depth leaves) = [root leaves] := by
  fun_induction root leaves with
  | case1 => contradiction
  | case2 node => simp [depth, levelAt]
  | case3 left right rest ih =>
    rw [depth, ← levelAt_parents]
    exact ih (by simp [parents])

/-- Below the top there is always something left to pair. -/
theorem one_lt_length_levelAt {leaves : List Hash256} {j : Nat} :
    1 < (levelAt leaves j).length ↔ j < depth leaves := by
  induction j generalizing leaves with
  | zero => exact depth_pos.symm
  | succ j ih =>
    rw [← levelAt_parents, ih, depth_parents]
    omega

theorem root_parents {leaves : List Hash256} (h : 1 < leaves.length) :
    root (parents leaves) = root leaves := by
  cases leaves using root.fun_cases with
  | case1 => simp at h
  | case2 node => simp at h
  | case3 left right rest =>
    conv_rhs => rw [root]

/-- Every level of a tree has the same root. -/
theorem root_levelAt {leaves : List Hash256} {j : Nat} (h : j ≤ depth leaves) :
    root (levelAt leaves j) = root leaves := by
  induction j with
  | zero => rfl
  | succ j ih =>
    have hpair : 1 < (levelAt leaves j).length := one_lt_length_levelAt.mpr h
    rw [levelAt, root_parents hpair, ih (Nat.le_of_succ_le h)]

/-- The node over leaf `i` on level `j`. -/
def ancestor (leaves : List Hash256) (i j : Nat) : Hash256 :=
  (levelAt leaves j).getD (i >>> j) .zero

variable {leaves : List Hash256} {i : Nat}

theorem shiftRight_lt_length_levelAt (hi : i < leaves.length) (j : Nat) :
    i >>> j < (levelAt leaves j).length := by
  induction j with
  | zero => exact hi
  | succ j ih =>
    rw [levelAt, length_parents, Nat.shiftRight_succ]
    omega

theorem ancestor_depth (hi : i < leaves.length) : ancestor leaves i (depth leaves) = root leaves := by
  have hne : leaves ≠ [] := List.ne_nil_of_length_pos (Nat.zero_lt_of_lt hi)
  have hlt := shiftRight_lt_length_levelAt hi (depth leaves)
  rw [levelAt_depth hne, List.length_singleton, Nat.lt_one_iff] at hlt
  rw [ancestor, levelAt_depth hne, hlt]
  rfl

/-- The bytes that are hashed for the node over leaf `i` on level `j + 1`. -/
def hashedAbove (leaves : List Hash256) (i j : Nat) : List UInt8 :=
  join (i.testBit j) (ancestor leaves i j) (sibling (levelAt leaves j) (i >>> j))

theorem hash_hashedAbove (hi : i < leaves.length) (j : Nat) :
    Hash256.hash (hashedAbove leaves i j) = ancestor leaves i (j + 1) := by
  have hbit : i.testBit j = (i >>> j).testBit 0 := by rw [Nat.testBit_shiftRight, Nat.add_zero]
  rw [hashedAbove, hbit]
  exact hash_join_sibling (shiftRight_lt_length_levelAt hi j)

end Merkle

end MergedMining
