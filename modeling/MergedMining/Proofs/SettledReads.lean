import MergedMining.Proofs.Failures

/-! Reads that cannot fail any more. A count is compared with the bytes behind it before its elements are
read, and a marker is looked at before it is taken, so that the bytes for what is read next are there. -/
namespace MergedMining

open Decoder

namespace Decoder

variable {α β : Type} {c c' m : Cursor} {e : DecodeError} {field : String} {least n width : Nat}

theorem Recognises.remaining_le {d : Decoder α} {E : Grammar α} (hd : d.Recognises E) {a : α}
    (h : d.Returns c a c') : c'.remaining ≤ c.remaining := by
  obtain ⟨bs, hs, -⟩ := (hd c a c').mp h
  rw [hs.remaining]
  exact Nat.le_add_left _ _

theorem fails_bind_of_returns {d : Decoder α} {f : α → Decoder β} {a : α} (h : d.Returns c a m) :
    (d >>= f).Fails c e c' ↔ (f a).Fails m e c' := by
  rw [fails_bind]
  constructor
  · intro hf
    rcases hf with hf | ⟨b, m', hb, hf⟩
    · exact absurd hf h.not_fails
    · obtain ⟨rfl, rfl⟩ := h.unique hb
      exact hf
  · intro hf
    exact .inr ⟨a, m, h, hf⟩

section Count

/-- The count is the number that is written, and so many elements can follow. -/
theorem returns_count : (count field least).Returns c n m ↔
    ∃ v, (varInt field).Returns c v m ∧ v.toNat = n ∧
      saturatingMul n (max least 1) ≤ m.remaining := by
  unfold count
  simp only [returns_bind, returns_here]
  constructor
  · intro h
    obtain ⟨_, _, ⟨rfl, rfl⟩, v, _, hv, _, _, ⟨rfl, rfl⟩, h⟩ := h
    split_ifs at h with hroom
    · obtain ⟨rfl, rfl⟩ := returns_pure.mp h
      exact ⟨v, hv, rfl, hasAtLeast_iff.mp hroom⟩
    · exact absurd h not_returns_failAt
  · intro h
    obtain ⟨v, hv, rfl, hroom⟩ := h
    refine ⟨c, c, ⟨rfl, rfl⟩, v, m, hv, m, m, ⟨rfl, rfl⟩, ?_⟩
    rw [if_pos (hasAtLeast_iff.mpr hroom)]
    exact returns_pure.mpr ⟨rfl, rfl⟩

/-- No input is as long as the number at which a product stops, so one that stops there is refused. -/
theorem mul_le_remaining_of_count (h : (count field least).Returns c n m)
    (hm : m.remaining < 2 ^ 64 - 1) : n * max least 1 ≤ m.remaining := by
  obtain ⟨v, -, -, hroom⟩ := returns_count.mp h
  rcases min_le_iff.mp hroom with hroom | hroom
  · exact hroom
  · exact absurd hm (Nat.not_lt_of_le hroom)

theorem remaining_le_of_count (h : (count field least).Returns c n m) :
    m.remaining ≤ c.remaining := by
  obtain ⟨v, hv, -⟩ := returns_count.mp h
  exact (recognises_varInt field).remaining_le hv

/-- A count on a platform whose sizes are the numbers below `limit`. A number that is no size is refused,
and products stop at the largest size. -/
def countBelow (limit : Nat) : CountReader := fun field least => do
  let start ← here
  let value ← varInt field
  if value.toNat < limit then
    let needed := min (value.toNat * max least 1) (limit - 1)
    let after ← here
    if hasAtLeast needed after.rest then return value.toNat
    else failAt start (.truncatedInput field needed after.remaining)
  else failAt start (.format (.countTooLarge field value))

/-- Where sizes have 64 bits, every number that can be written is a size. -/
theorem countBelow_size : countBelow UInt64.size = count := by
  funext field least
  unfold countBelow count
  congr 1
  funext start
  congr 1
  funext value
  rw [if_pos value.toNat_lt]
  rfl

-- With sizes of 32 bits, the least number that needs 33 is refused.
example : (countBelow (2 ^ 32) "n" 1 (.ofBytes [0xff, 0, 0, 0, 0, 1, 0, 0, 0])).result =
    .error (.format (.countTooLarge "n" (2 ^ 32))) := by decide

end Count

section FixedWidth

variable {d : Decoder α}

theorem FailsShort.exists_returns (h : d.FailsShort width field) (hroom : width ≤ c.remaining) :
    ∃ a c', d.Returns c a c' := by
  rcases returns_or_fails d c with ⟨a, ha⟩ | ⟨e, he⟩
  · exact ⟨a, _, ha⟩
  · obtain ⟨hshort, -, -⟩ := (h c e _).mp he
    exact absurd hroom (Nat.not_le_of_lt hshort)

/-- The decoder reads `width` bytes where there are so many, and fails nowhere else. -/
structure FixedWidth (width : Nat) (field : String) (d : Decoder α) : Prop where
  failsShort : d.FailsShort width field
  moves {c c' : Cursor} {a : α} (h : d.Returns c a c') : c.remaining = width + c'.remaining

/-- What remains in front of each element has room for it and for all that follow. -/
theorem FixedWidth.exists_returns_times (h : d.FixedWidth width field)
    (hroom : n * width ≤ c.remaining) : ∃ as c', (times n d).Returns c as c' := by
  induction n generalizing c with
  | zero => exact ⟨[], c, returns_pure.mpr ⟨rfl, rfl⟩⟩
  | succ n ih =>
    rw [Nat.succ_mul] at hroom
    obtain ⟨a, m, ha⟩ := h.failsShort.exists_returns (by omega : width ≤ c.remaining)
    have hrest : n * width ≤ m.remaining := by
      have := h.moves ha
      omega
    obtain ⟨as, c', has⟩ := ih hrest
    refine ⟨a :: as, c', returns_bind.mpr ⟨a, m, ha, ?_⟩⟩
    exact returns_bind.mpr ⟨as, c', has, returns_pure.mpr ⟨rfl, rfl⟩⟩

theorem fixedWidth_hash (field : String) : (hash field).FixedWidth 32 field where
  failsShort := failsShort_hash field
  moves {c c' a} h := by
    obtain ⟨_, hs, -, rfl⟩ := (recognises_hash field c a c').mp h
    rw [hs.remaining, a.length_bytes]

end FixedWidth

end Decoder

variable {c c' m m' : Cursor} {e : DecodeError} {field : String} {n : Nat}

namespace Merkle.Branch

variable {hashes : List Hash256}

theorem exists_hashes (h : (count "merkle_branch.count" hashSize).Returns c n m)
    (hm : m.remaining < 2 ^ 64 - 1) :
    ∃ hashes m', (times n (hash "merkle_branch.hash")).Returns m hashes m' :=
  (fixedWidth_hash _).exists_returns_times (mul_le_remaining_of_count h hm)

theorem fails_decode_of_hashes (hcount : (count "merkle_branch.count" hashSize).Returns c n m)
    (hhashes : (times n (hash "merkle_branch.hash")).Returns m hashes m') :
    decode.Fails c e c' ↔ (int32 "merkle_branch.side_mask").Fails m' e c' := by
  unfold decode decodeCounting
  rw [fails_bind_of_returns hcount, fails_bind_of_returns hhashes, fails_bind]
  simp [fails_bind]

/-- A branch fails at its count or at its mask. -/
theorem fails_decode_iff (hc : c.remaining < 2 ^ 64 - 1) : decode.Fails c e c' ↔
    (count "merkle_branch.count" hashSize).Fails c e c' ∨
      ∃ n m hashes m', (count "merkle_branch.count" hashSize).Returns c n m ∧
        (times n (hash "merkle_branch.hash")).Returns m hashes m' ∧
        (int32 "merkle_branch.side_mask").Fails m' e c' := by
  constructor
  · intro h
    rcases fails_bind.mp h with h' | ⟨n, m, hn, -⟩
    · exact .inl h'
    · obtain ⟨hashes, m', hhashes⟩ := exists_hashes hn ((remaining_le_of_count hn).trans_lt hc)
      exact .inr ⟨n, m, hashes, m', hn, hhashes, (fails_decode_of_hashes hn hhashes).mp h⟩
  · intro h
    rcases h with h | ⟨n, m, hashes, m', hn, hhashes, h⟩
    · exact fails_bind.mpr (.inl h)
    · exact (fails_decode_of_hashes hn hhashes).mpr h

end Merkle.Branch

namespace Transaction

theorem exists_script (h : (count field 1).Returns c n m) (hm : m.remaining < 2 ^ 64 - 1) :
    ∃ script m', (bytes n field).Returns m script m' := by
  have hroom : n * max 1 1 ≤ m.remaining := mul_le_remaining_of_count h hm
  rw [max_self, Nat.mul_one] at hroom
  exact (failsShort_bytes n field).exists_returns hroom

/-- A script fails at its length. -/
theorem fails_decodeScript_iff (hc : c.remaining < 2 ^ 64 - 1) :
    (decodeScript .count field).Fails c e c' ↔ (count field 1).Fails c e c' := by
  unfold decodeScript
  rw [fails_bind]
  constructor
  · intro h
    rcases h with h | ⟨n, m, hn, h⟩
    · exact h
    · obtain ⟨script, m', hscript⟩ := exists_script hn ((remaining_le_of_count hn).trans_lt hc)
      exact absurd h hscript.not_fails
  · exact .inl

theorem returns_marker (h : c.peek = some 0) : (uint8 "tx.marker").Returns c 0 (c.advance 1) := by
  obtain ⟨rest, hrest⟩ := List.head?_eq_some_iff.mp h
  exact returns_uint8.mpr ⟨rest, hrest, rfl⟩

/-- Telling the layouts apart fails at the flag. -/
theorem fails_decodeLayout_iff : decodeLayout.Fails c e c' ↔ c.peek = some 0 ∧
    ((uint8 "tx.flag").Fails (c.advance 1) e c' ∨ ∃ flag ≠ 1,
      (uint8 "tx.flag").Returns (c.advance 1) flag c' ∧
        e = .format (.invalidWitnessFlag flag)) := by
  have hstart : here.Returns c c c := returns_here.mpr ⟨rfl, rfl⟩
  unfold decodeLayout
  rw [fails_bind_of_returns hstart]
  split_ifs with hpeek
  · rw [fails_bind_of_returns (returns_marker hpeek), fails_bind]
    constructor
    · intro h
      rcases h with h | ⟨flag, m, hflag, h⟩
      · exact ⟨hpeek, .inl h⟩
      · split_ifs at h with hone
        · exact absurd h not_fails_pure
        · obtain ⟨rfl, rfl⟩ := fails_fail.mp h
          exact ⟨hpeek, .inr ⟨flag, hone, hflag, rfl⟩⟩
    · intro h
      rcases h with ⟨-, h | ⟨flag, hone, hflag, rfl⟩⟩
      · exact .inl h
      · refine .inr ⟨flag, c', hflag, ?_⟩
        rw [if_neg hone]
        exact fails_fail.mpr ⟨rfl, rfl⟩
  · simp [hpeek]

end Transaction

end MergedMining
