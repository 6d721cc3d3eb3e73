import MergedMining.Block.Basic
import MergedMining.Proofs.MerkleLevels

/-! What a root says about its leaves. It tells lists of one length apart, unless the digest has a
collision. It does not tell every list from a longer one: a tree copies the last node of an odd level,
and writing out the leaves under that node a second time does the same. -/
namespace MergedMining

namespace Merkle

variable {a b : List Hash256}

/-- Trees that agree in the node over leaf `i` on level `n` agree in that leaf, or else the strings that
are hashed at one place below the node collide. The induction goes down from the node. -/
theorem leaf_eq_or_collision {i : Nat} (ha : i < a.length) (hb : i < b.length) {n : Nat}
    (h : ancestor a i n = ancestor b i n) :
    a[i] = b[i] ∨ ∃ j < n, Collision (hashedAbove a i j) (hashedAbove b i j) := by
  induction n with
  | zero =>
    left
    simpa [ancestor, levelAt, ha, hb] using h
  | succ n ih =>
    rw [← hash_hashedAbove ha, ← hash_hashedAbove hb] at h
    obtain ⟨hnode, -⟩ | hc := join_inj_or_collision h
    · obtain hleaf | ⟨j, hj, hc⟩ := ih hnode
      · exact .inl hleaf
      · exact .inr ⟨j, Nat.lt_succ_of_lt hj, hc⟩
    · exact .inr ⟨n, Nat.lt_succ_self n, hc⟩

/-- Lists of one length with one root are the same, or else two strings of 64 bytes collide that are
hashed at the same place in the two trees, for the node over some leaf `i` on level `j + 1`. -/
theorem eq_or_collision_of_root_eq (hlen : a.length = b.length) (h : root a = root b) :
    a = b ∨ ∃ i < a.length, ∃ j < depth a,
      (hashedAbove a i j).length = 64 ∧ (hashedAbove b i j).length = 64 ∧
        Collision (hashedAbove a i j) (hashedAbove b i j) := by
  have hdepth : depth a = depth b := by rw [depth_eq_clog, depth_eq_clog, hlen]
  rw [or_iff_not_imp_right]
  intro hnone
  apply List.ext_getElem hlen
  intro i ha hb
  have htop : ancestor a i (depth a) = ancestor b i (depth a) := by
    rw [ancestor_depth ha, hdepth, ancestor_depth hb, h]
  obtain hleaf | ⟨j, hj, hc⟩ := leaf_eq_or_collision ha hb htop
  · exact hleaf
  · exact absurd ⟨i, ha, j, hj, length_join _ _ _, length_join _ _ _, hc⟩ hnone

theorem eq_or_collision_threeLeaves :
    let a := [1, 2, 3].map Hash256.ofNat
    let b := (List.range 3).map fun i => Hash256.ofNat (i + 1)
    a.length = b.length ∧ root a = root b ∧
      (a = b ∨ ∃ i < a.length, ∃ j < depth a,
        (hashedAbove a i j).length = 64 ∧ (hashedAbove b i j).length = 64 ∧
          Collision (hashedAbove a i j) (hashedAbove b i j)) := by
  intro a b
  have hab : a = b := rfl
  have hlen : a.length = b.length := congrArg List.length hab
  have hroot : root a = root b := congrArg root hab
  exact ⟨hlen, hroot, eq_or_collision_of_root_eq hlen hroot⟩

end Merkle

/-- A list with its last `n` elements written a second time. -/
def repeatLast {α : Type} (n : Nat) (xs : List α) : List α := xs ++ xs.drop (xs.length - n)

section RepeatLast

variable {α β : Type} {n : Nat}

theorem repeatLast_append {xs ys : List α} (h : n ≤ ys.length) :
    repeatLast n (xs ++ ys) = xs ++ repeatLast n ys := by
  have hlen : (xs ++ ys).length - n = xs.length + (ys.length - n) := by
    rw [List.length_append]
    omega
  rw [repeatLast, repeatLast, hlen, List.drop_length_add_append, List.append_assoc]

theorem map_repeatLast (f : α → β) (n : Nat) (xs : List α) :
    (repeatLast n xs).map f = repeatLast n (xs.map f) := by
  simp [repeatLast, List.map_drop]

theorem length_repeatLast {xs : List α} (h : n ≤ xs.length) :
    (repeatLast n xs).length = xs.length + n := by
  simp only [repeatLast, List.length_append, List.length_drop]
  omega

theorem repeatLast_ne {xs : List α} (hn : 0 < n) (h : n ≤ xs.length) : repeatLast n xs ≠ xs := by
  intro he
  have hlen := length_repeatLast h
  rw [he] at hlen
  omega

end RepeatLast

namespace Merkle

/-- The last node of an odd level is paired with a copy of itself, whether or not the copy is there. -/
theorem parents_repeatLast_of_odd {level : List Hash256} (h : Odd level.length) :
    parents (repeatLast 1 level) = parents level := by
  obtain rfl | ⟨front, last, rfl⟩ := level.eq_nil_or_concat'
  · simp at h
  · have heven : Even front.length := by simpa [Nat.odd_add_one] using h
    calc parents (repeatLast 1 (front ++ [last]))
        = parents (front ++ [last, last]) := by rw [repeatLast_append (by simp)]; rfl
      _ = parents front ++ parents [last, last] := parents_append heven _
      _ = parents front ++ parents [last] := rfl
      _ = parents (front ++ [last]) := (parents_append heven _).symm

/-- On an even level the copies of the last nodes are paired among themselves. -/
theorem parents_repeatLast_of_even {level : List Hash256} (h : Even level.length) (n : Nat) :
    parents (repeatLast (2 * n) level) = repeatLast n (parents level) := by
  have hlen : level.length - 2 * n = 2 * ((parents level).length - n) := by
    have hhalf := Nat.two_mul_div_two_of_even h
    rw [length_parents]
    omega
  rw [repeatLast, repeatLast, parents_append h, hlen, parents_drop]

/-- On level `k + 1` there is no trace of the copies of the last `2 ^ k` leaves. Below level `k` all
levels are even and the copies keep to themselves. Level `k` is odd, and there is one copy left. -/
theorem levelAt_repeatLast {k m : Nat} (hm : Odd m) {leaves : List Hash256}
    (hlen : leaves.length = 2 ^ k * m) :
    levelAt (repeatLast (2 ^ k) leaves) (k + 1) = levelAt leaves (k + 1) := by
  induction k generalizing leaves with
  | zero =>
    have hodd : Odd leaves.length := by rwa [hlen, Nat.pow_zero, Nat.one_mul]
    exact parents_repeatLast_of_odd hodd
  | succ k ih =>
    rw [Nat.pow_succ', Nat.mul_assoc] at hlen
    have heven : Even leaves.length := hlen ▸ even_two_mul _
    have hparents : (parents leaves).length = 2 ^ k * m := by
      rw [length_parents]
      omega
    calc levelAt (repeatLast (2 ^ (k + 1)) leaves) (k + 2)
        = levelAt (parents (repeatLast (2 * 2 ^ k) leaves)) (k + 1) := by
          rw [levelAt_parents, Nat.pow_succ']
      _ = levelAt (repeatLast (2 ^ k) (parents leaves)) (k + 1) := by
          rw [parents_repeatLast_of_even heven]
      _ = levelAt (parents leaves) (k + 1) := ih hparents
      _ = levelAt leaves (k + 2) := levelAt_parents leaves (k + 1)

theorem root_repeatLast {k m : Nat} (hodd : Odd m) (hm : 3 ≤ m) {leaves : List Hash256}
    (hlen : leaves.length = 2 ^ k * m) : root (repeatLast (2 ^ k) leaves) = root leaves := by
  have hthree : 2 ^ k * 3 ≤ leaves.length := hlen ▸ Nat.mul_le_mul_left _ hm
  have hpos : 0 < 2 ^ k := Nat.two_pow_pos k
  have hdepth : k < depth leaves := by
    rw [lt_depth_iff]
    omega
  have hdepth' : k < depth (repeatLast (2 ^ k) leaves) := by
    rw [lt_depth_iff, length_repeatLast (by omega)]
    omega
  calc root (repeatLast (2 ^ k) leaves)
      = root (levelAt (repeatLast (2 ^ k) leaves) (k + 1)) := (root_levelAt hdepth').symm
    _ = root (levelAt leaves (k + 1)) := by rw [levelAt_repeatLast hodd hlen]
    _ = root leaves := root_levelAt hdepth

end Merkle

namespace Block

variable {T H : Type}

/-- The block with its last `n` transactions written a second time. -/
def withLastRepeated (n : Nat) (b : Block T H) : Block T H :=
  { b with transactions := repeatLast n b.transactions }

/-- A list whose length is a power of two times an odd number above one has the root of a longer list,
and a block with so many transactions shares its hash and its root with a longer block. -/
theorem root_and_hash_of_repeated {k m : Nat} (hodd : Odd m) (hm : 3 ≤ m) :
    (∀ leaves : List Hash256, leaves.length = 2 ^ k * m →
      repeatLast (2 ^ k) leaves ≠ leaves ∧
        Merkle.root (repeatLast (2 ^ k) leaves) = Merkle.root leaves) ∧
    ∀ b : Block Transaction Header, b.transactions.length = 2 ^ k * m →
      b.withLastRepeated (2 ^ k) ≠ b ∧ (b.withLastRepeated (2 ^ k)).hash = b.hash ∧
        (b.withLastRepeated (2 ^ k)).merkleRoot = b.merkleRoot := by
  have hne {α : Type} {xs : List α} (hlen : xs.length = 2 ^ k * m) : repeatLast (2 ^ k) xs ≠ xs := by
    apply repeatLast_ne (Nat.two_pow_pos k)
    rw [hlen]
    exact Nat.le_mul_of_pos_right _ hodd.pos
  constructor
  · intro leaves hlen
    exact ⟨hne hlen, Merkle.root_repeatLast hodd hm hlen⟩
  · intro b hlen
    refine ⟨fun he => hne hlen (congrArg transactions he), rfl, ?_⟩
    have hids : (b.transactions.map Transaction.txid).length = 2 ^ k * m := by
      rw [List.length_map, hlen]
    rw [merkleRoot, withLastRepeated, map_repeatLast, Merkle.root_repeatLast hodd hm hids, merkleRoot]

/-- A block of six transactions that differ in their lock times. -/
def ofSixTransactions : Block Transaction Header where
  header :=
    { version := 1, prevBlockHash := .zero, merkleRoot := .zero, timestamp := 0, bits := 0,
      nonce := 0 }
  auxPow := none
  transactions := (List.range 6).map fun i => ⟨1, [], [], .ofNat i⟩

theorem root_and_hash_ofSixTransactions :
    let b := ofSixTransactions
    let ids := b.transactions.map Transaction.txid
    Odd 3 ∧ 3 ≤ 3 ∧ ids.length = 2 ^ 1 * 3 ∧ b.transactions.length = 2 ^ 1 * 3 ∧
      (repeatLast 2 ids ≠ ids ∧ Merkle.root (repeatLast 2 ids) = Merkle.root ids) ∧
      b.withLastRepeated 2 ≠ b ∧ (b.withLastRepeated 2).hash = b.hash ∧
        (b.withLastRepeated 2).merkleRoot = b.merkleRoot := by
  intro b ids
  have hodd : Odd 3 := by decide
  have hids : ids.length = 2 ^ 1 * 3 := by simp [ids, b, ofSixTransactions]
  have hlen : b.transactions.length = 2 ^ 1 * 3 := by simp [b, ofSixTransactions]
  have h := root_and_hash_of_repeated (k := 1) hodd le_rfl
  exact ⟨hodd, le_rfl, hids, hlen, h.1 ids hids, h.2 b hlen⟩

end Block

end MergedMining
