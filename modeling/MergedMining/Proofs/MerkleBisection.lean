import MergedMining.Proofs.MerkleLevels

/-! The levels of a tree are built from the leaves upwards. The root is the one that is found from the
top downwards, by cutting the leaves in two at a power of two. -/
namespace MergedMining.Merkle

/-- The root of a tree of height `d`. The left half takes the first `2 ^ d` leaves of a tree of height
`d + 1`, and stands in for the right half if that has none. -/
def bisected : (d : Nat) → (leaves : List Hash256) → Hash256
  | 0, leaves => leaves.headD .zero
  | d + 1, leaves =>
    let left := bisected d (leaves.take (2 ^ d))
    let rest := leaves.drop (2 ^ d)
    .combine left (if rest = [] then left else bisected d rest)

/-- Pairing the leaves takes the lowest level off the tree. The halves of the parents are the parents of
the halves, since every half but the last holds whole pairs. -/
theorem bisected_parents {d : Nat} {leaves : List Hash256} (h : leaves ≠ [])
    (hlen : leaves.length ≤ 2 ^ (d + 1)) : bisected d (parents leaves) = bisected (d + 1) leaves := by
  induction d generalizing leaves with
  | zero =>
    obtain _ | ⟨left, _ | ⟨right, rest⟩⟩ := leaves
    · contradiction
    · rfl
    · obtain rfl : rest = [] := by simpa using hlen
      rfl
  | succ d ih =>
    have hpow : 2 ^ (d + 1) = 2 * 2 ^ d := Nat.pow_succ'
    have hleft : bisected d (parents (leaves.take (2 ^ (d + 1)))) =
        bisected (d + 1) (leaves.take (2 ^ (d + 1))) := by
      apply ih
      · simp [h]
      · exact List.length_take_le _ _
    have hright (hrest : leaves.drop (2 ^ (d + 1)) ≠ []) :
        bisected d (parents (leaves.drop (2 ^ (d + 1)))) =
          bisected (d + 1) (leaves.drop (2 ^ (d + 1))) := by
      apply ih hrest
      rw [List.length_drop]
      omega
    rw [hpow] at hleft hright
    rw [bisected, bisected, ← parents_take, ← parents_drop, hpow]
    simp only [parents_eq_nil, hleft]
    split_ifs with hrest
    · rfl
    · rw [hright hrest]

theorem root_eq_bisected_depth {leaves : List Hash256} (h : leaves ≠ []) :
    root leaves = bisected (depth leaves) leaves := by
  induction leaves using root.induct with
  | case1 => contradiction
  | case2 node => simp [root, depth, bisected]
  | case3 left right rest ih =>
    have hlen : (left :: right :: rest).length ≤ 2 ^ depth (left :: right :: rest) :=
      depth_le_iff.mp le_rfl
    rw [depth] at hlen ⊢
    rw [root, ih (by simp [parents]), bisected_parents h hlen]

/-- The root of no leaves is zero. Over any others stands the least tree that has room for them: there
is something left to pair in as many rounds as it is high, and then there is its root. -/
theorem root_eq_bisected : root [] = .zero ∧
    ∀ {leaves : List Hash256} {d : Nat}, leaves ≠ [] → IsLeast {k | leaves.length ≤ 2 ^ k} d →
      root leaves = bisected d leaves ∧
        (∀ j, 1 < (levelAt leaves j).length ↔ j < d) ∧ levelAt leaves d = [root leaves] := by
  refine ⟨by rw [root], fun {leaves d} h hd => ?_⟩
  have hdepth : IsLeast {k | leaves.length ≤ 2 ^ k} (depth leaves) :=
    ⟨depth_le_iff.mp le_rfl, fun k hk => depth_le_iff.mpr hk⟩
  obtain rfl := hd.unique hdepth
  exact ⟨root_eq_bisected_depth h, fun j => one_lt_length_levelAt, levelAt_depth h⟩

/-- Eleven leaves, which leave a node without a sibling on two levels. -/
def elevenLeaves : List Hash256 := (List.range 11).map .ofNat

theorem root_elevenLeaves : elevenLeaves ≠ [] ∧ IsLeast {k | elevenLeaves.length ≤ 2 ^ k} 4 ∧
    root elevenLeaves = bisected 4 elevenLeaves ∧
      (∀ j, 1 < (levelAt elevenLeaves j).length ↔ j < 4) ∧
        levelAt elevenLeaves 4 = [root elevenLeaves] := by
  have hne : elevenLeaves ≠ [] := by decide
  have hlen : elevenLeaves.length = 11 := by decide
  have hd : IsLeast {k | elevenLeaves.length ≤ 2 ^ k} 4 := by
    refine ⟨by decide, fun k hk => ?_⟩
    by_contra hlt
    interval_cases k <;> simp [hlen] at hk
  exact ⟨hne, hd, root_eq_bisected.2 hne hd⟩

/-- Of six leaves the last two have a node to themselves, which is paired with itself one level up. -/
example (a b c d e f : Hash256) : bisected 3 [a, b, c, d, e, f] =
    .combine (.combine (.combine a b) (.combine c d)) (.combine (.combine e f) (.combine e f)) :=
  rfl

end MergedMining.Merkle
