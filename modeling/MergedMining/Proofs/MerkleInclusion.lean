import MergedMining.Proofs.MerkleLevels

/-! A branch leads from a leaf to the root of a tree if it holds the siblings on the path of that leaf.
No other branch does, unless it comes with a collision of the digest. -/
namespace MergedMining.Merkle

namespace Branch

theorem toBitVec_shiftRight_ofNat (mask : Int32) {level : Nat} (h : level < 32) :
    (mask >>> Int32.ofNat level).toBitVec = mask.toBitVec.sshiftRight level := by
  have hl : ((Int32.ofNat level).toBitVec.smod 32).toNat = level := by
    interval_cases level <;> rfl
  rw [Int32.toBitVec_shiftRight, BitVec.sshiftRight', hl]

theorem and_one_beq_one (n : Int32) : (n &&& 1 == 1) = n.toBitVec.getLsbD 0 := by
  have hand : (n &&& 1).toBitVec = BitVec.setWidth 32 (BitVec.ofBool (n.toBitVec.getLsbD 0)) := by
    rw [Int32.toBitVec_and]
    exact BitVec.and_one_eq_setWidth_ofBool_getLsbD
  rw [Bool.eq_iff_iff, beq_iff_eq, ← Int32.toBitVec_inj, hand]
  cases n.toBitVec.getLsbD 0 <;> decide

/-- The sides are the bits of the mask, its sign bit included. From level 32 on there are none left. -/
theorem onRight_eq_testBit (mask : Int32) (level : Nat) :
    onRight mask level = mask.toUInt32.toNat.testBit level := by
  rw [← Int32.toNat_toBitVec, BitVec.testBit_toNat]
  by_cases h : level < 32
  · simp only [onRight, h, decide_true, Bool.true_and]
    rw [and_one_beq_one, toBitVec_shiftRight_ofNat mask h, BitVec.getLsbD_sshiftRight]
    simp [h]
  · rw [BitVec.getLsbD_of_ge _ _ (Nat.le_of_not_lt h)]
    simp [onRight, h]

/-- The last sibling is hashed with the node that the branch below it leads to. -/
theorem rootFrom_concat (hashes : List Hash256) (last : Hash256) (mask : Int32) (leaf : Hash256) :
    rootFrom ⟨hashes ++ [last], mask⟩ leaf =
      .hash (join (onRight mask hashes.length) (rootFrom ⟨hashes, mask⟩ leaf) last) := by
  simp only [rootFrom, List.zipIdx_append, List.foldl_append, List.zipIdx_singleton, Nat.zero_add,
    List.foldl_cons, List.foldl_nil]
  cases onRight mask hashes.length <;> rfl

/-- The bytes that are hashed at level `j` on the way up from `leaf`. -/
def hashedAt (m : Branch) (leaf : Hash256) (j : Nat) : List UInt8 :=
  join (onRight m.sideMask j) (rootFrom ⟨m.hashes.take j, m.sideMask⟩ leaf) (m.hashes.getD j .zero)

theorem hashedAt_concat_of_lt {hashes : List Hash256} {last : Hash256} {mask : Int32} {leaf : Hash256}
    {j : Nat} (hj : j < hashes.length) :
    hashedAt ⟨hashes ++ [last], mask⟩ leaf j = hashedAt ⟨hashes, mask⟩ leaf j := by
  simp [hashedAt, List.take_append_of_le_length hj.le, List.getElem?_append_left hj]

theorem hashedAt_concat_length (hashes : List Hash256) (last : Hash256) (mask : Int32) (leaf : Hash256) :
    hashedAt ⟨hashes ++ [last], mask⟩ leaf hashes.length =
      join (onRight mask hashes.length) (rootFrom ⟨hashes, mask⟩ leaf) last := by
  simp [hashedAt]

end Branch

variable {leaves : List Hash256} {i : Nat}

/-- The siblings on the path of leaf `i` over the lowest `n` levels. -/
def path (leaves : List Hash256) (i n : Nat) : List Hash256 :=
  (List.range n).map fun j => sibling (levelAt leaves j) (i >>> j)

@[simp] theorem length_path (leaves : List Hash256) (i n : Nat) : (path leaves i n).length = n := by
  simp [path]

theorem path_succ (leaves : List Hash256) (i n : Nat) :
    path leaves i (n + 1) = path leaves i n ++ [sibling (levelAt leaves n) (i >>> n)] := by
  simp [path, List.range_succ]

/-- A path of siblings leads to the nodes over its leaf. -/
theorem rootFrom_path (hi : i < leaves.length) {mask : Int32} {n : Nat}
    (hmask : ∀ j < n, Branch.onRight mask j = i.testBit j) :
    Branch.rootFrom ⟨path leaves i n, mask⟩ leaves[i] = ancestor leaves i n := by
  induction n with
  | zero => simp [path, Branch.rootFrom, ancestor, levelAt, hi]
  | succ n ih =>
    have hn := ih fun j hj => hmask j (Nat.lt_succ_of_lt hj)
    rw [path_succ, Branch.rootFrom_concat, length_path, hn, hmask n (Nat.lt_succ_self n)]
    exact hash_hashedAbove hi n

/-- The highest step of a branch that leads to a node over leaf `i` is the step from the node below and
its sibling, or else the two strings that are hashed there collide. -/
theorem last_step_or_collision (hi : i < leaves.length) {mask : Int32} {leaf last : Hash256}
    {hashes : List Hash256} (hside : Branch.onRight mask hashes.length = i.testBit hashes.length)
    (h : Branch.rootFrom ⟨hashes ++ [last], mask⟩ leaf = ancestor leaves i (hashes.length + 1)) :
    (Branch.rootFrom ⟨hashes, mask⟩ leaf = ancestor leaves i hashes.length ∧
        last = sibling (levelAt leaves hashes.length) (i >>> hashes.length)) ∨
      Collision (Branch.hashedAt ⟨hashes ++ [last], mask⟩ leaf hashes.length)
        (hashedAbove leaves i hashes.length) := by
  rw [Branch.rootFrom_concat, ← hash_hashedAbove hi] at h
  rw [Branch.hashedAt_concat_length]
  rw [hashedAbove, hside] at h ⊢
  exact join_inj_or_collision h

/-- Whatever leads to a node over a leaf starts from that leaf and follows its path, up to a level
where two strings collide. The induction takes the levels off from the top. -/
theorem eq_path_or_collision (hi : i < leaves.length) {mask : Int32} {leaf : Hash256}
    {hashes : List Hash256} (hmask : ∀ j < hashes.length, Branch.onRight mask j = i.testBit j)
    (h : Branch.rootFrom ⟨hashes, mask⟩ leaf = ancestor leaves i hashes.length) :
    (leaf = leaves[i] ∧ hashes = path leaves i hashes.length) ∨
      ∃ j < hashes.length,
        Collision (Branch.hashedAt ⟨hashes, mask⟩ leaf j) (hashedAbove leaves i j) := by
  induction hashes using List.reverseRecOn with
  | nil =>
    left
    simpa [path, Branch.rootFrom, ancestor, levelAt, hi] using h
  | append_singleton hashes last ih =>
    have hlen : (hashes ++ [last]).length = hashes.length + 1 := by simp
    rw [hlen] at hmask h ⊢
    have hbelow : ∀ j < hashes.length, Branch.onRight mask j = i.testBit j := by
      intro j hj
      exact hmask j (Nat.lt_succ_of_lt hj)
    obtain ⟨hnode, rfl⟩ | hc := last_step_or_collision hi (hmask _ (Nat.lt_succ_self _)) h
    · obtain ⟨hleaf, hpath⟩ | ⟨j, hj, hc⟩ := ih hbelow hnode
      · left
        rw [path_succ, ← hpath]
        exact ⟨hleaf, rfl⟩
      · right
        rw [← Branch.hashedAt_concat_of_lt hj] at hc
        exact ⟨j, Nat.lt_succ_of_lt hj, hc⟩
    · right
      exact ⟨hashes.length, Nat.lt_succ_self _, hc⟩

/-- A path up to the top leads to the root. -/
theorem rootFrom_path_depth (hi : i < leaves.length) {mask : Int32}
    (hmask : ∀ j < depth leaves, Branch.onRight mask j = i.testBit j) :
    Branch.rootFrom ⟨path leaves i (depth leaves), mask⟩ leaves[i] = root leaves :=
  (rootFrom_path hi hmask).trans (ancestor_depth hi)

/-- The branch of leaf `i`: the siblings on its path, and the bits of `i` for the sides. -/
def inclusion (leaves : List Hash256) (i : Nat) : Branch where
  hashes := path leaves i (depth leaves)
  sideMask := (UInt32.ofNat i).toInt32

/-- The branch of a leaf leads from that leaf to the root. -/
theorem rootFrom_inclusion (hleaves : leaves.length ≤ 2 ^ 32) (hi : i < leaves.length) :
    (inclusion leaves i).rootFrom leaves[i] = root leaves := by
  have hbits : (UInt32.ofNat i).toInt32.toUInt32.toNat = i := by
    rw [UInt32.toUInt32_toInt32]
    exact UInt32.toNat_ofNat_of_lt' (Nat.lt_of_lt_of_le hi hleaves)
  apply rootFrom_path_depth hi
  intro j _
  rw [Branch.onRight_eq_testBit, hbits]

/-- Three leaves, the last of which is its own sibling. -/
def threeLeaves : List Hash256 := [.ofNat 1, .ofNat 2, .ofNat 3]

theorem rootFrom_inclusion_threeLeaves :
    threeLeaves.length ≤ 2 ^ 32 ∧ 2 < threeLeaves.length ∧
      (inclusion threeLeaves 2).rootFrom (.ofNat 3) = root threeLeaves := by
  have hleaves : threeLeaves.length ≤ 2 ^ 32 := by decide
  have hi : 2 < threeLeaves.length := by decide
  exact ⟨hleaves, hi, rootFrom_inclusion hleaves hi⟩

/-- A branch that is as long as the tree is deep and whose mask points to leaf `i` leads to the root
only from that leaf and along its path, or else two strings of 64 bytes collide, one that is hashed on
the way up the branch and one that is hashed on the same level of the tree. -/
theorem leaf_and_path_of_rootFrom_eq_root (hi : i < leaves.length) {m : Branch} {leaf : Hash256}
    (hdepth : m.hashes.length = depth leaves)
    (hmask : m.sideMask.toUInt32.toNat % 2 ^ depth leaves = i % 2 ^ depth leaves)
    (h : m.rootFrom leaf = root leaves) :
    (leaf = leaves[i] ∧ m.hashes = path leaves i (depth leaves)) ∨
      ∃ j < depth leaves, (m.hashedAt leaf j).length = 64 ∧ (hashedAbove leaves i j).length = 64 ∧
        Collision (m.hashedAt leaf j) (hashedAbove leaves i j) := by
  have hside : ∀ j < m.hashes.length, Branch.onRight m.sideMask j = i.testBit j := by
    intro j hj
    have hbit := congrArg (Nat.testBit · j) hmask
    rw [hdepth] at hj
    simpa [Nat.testBit_mod_two_pow, hj, Branch.onRight_eq_testBit] using hbit
  rw [← ancestor_depth hi, ← hdepth] at h
  rw [← hdepth]
  obtain hpath | ⟨j, hj, hc⟩ := eq_path_or_collision hi hside h
  · exact .inl hpath
  · exact .inr ⟨j, hj, length_join _ _ _, length_join _ _ _, hc⟩

/-- The mask `-2` points to the third leaf: of its bits only the lowest two count. -/
theorem leaf_and_path_threeLeaves :
    let m : Branch := ⟨path threeLeaves 2 (depth threeLeaves), -2⟩
    2 < threeLeaves.length ∧ m.hashes.length = depth threeLeaves ∧
      m.sideMask.toUInt32.toNat % 2 ^ depth threeLeaves = 2 % 2 ^ depth threeLeaves ∧
      m.rootFrom (.ofNat 3) = root threeLeaves ∧
      ((Hash256.ofNat 3 = threeLeaves[2] ∧ m.hashes = path threeLeaves 2 (depth threeLeaves)) ∨
        ∃ j < depth threeLeaves, (m.hashedAt (.ofNat 3) j).length = 64 ∧
          (hashedAbove threeLeaves 2 j).length = 64 ∧
          Collision (m.hashedAt (.ofNat 3) j) (hashedAbove threeLeaves 2 j)) := by
  intro m
  have hi : 2 < threeLeaves.length := by decide
  have hdepth : depth threeLeaves = 2 := by simp [threeLeaves, depth, parents]
  have hlen : m.hashes.length = depth threeLeaves := length_path _ _ _
  have hmask : m.sideMask.toUInt32.toNat % 2 ^ depth threeLeaves = 2 % 2 ^ depth threeLeaves := by
    rw [hdepth]
    decide
  have hroot : m.rootFrom (.ofNat 3) = root threeLeaves := by
    apply rootFrom_path_depth hi
    rw [hdepth]
    decide
  exact ⟨hi, hlen, hmask, hroot, leaf_and_path_of_rootFrom_eq_root hi hlen hmask hroot⟩

end MergedMining.Merkle
