import MergedMining.Proofs.Failures

/-! The format of a merkle branch: a count, as many hashes and a mask. A branch is read from the bytes that
are written for it and from no others, at any place of the input. A count that announces more hashes than
can follow is refused before the first of them is read, with the cursor back at the count. -/
namespace MergedMining.Merkle.Branch

open Decoder

variable {c m : Cursor} {data : List UInt8} {pos n : Nat} {v : UInt64} {branch : Branch}

/-- The bytes that are there bound the hashes that a branch written in them can have. -/
theorem returns_decode_iff (hdata : data.length < 2 ^ 63) (hn : pos + n ≤ data.length) :
    decode.Returns (.ofOffset data pos) branch (.ofOffset data (pos + n)) ↔
      (data.drop pos).take n = branch.encode := by
  rw [recognises_decode]
  constructor
  · intro h
    obtain ⟨bs, hspans, -, rfl⟩ := h
    exact (Cursor.spans_ofOffset hn).mp hspans
  · intro h
    refine ⟨branch.encode, (Cursor.spans_ofOffset hn).mpr h, ?_, rfl⟩
    have hlen : branch.encode.length ≤ data.length := by
      rw [← h, List.length_take, List.length_drop]
      omega
    calc branch.hashes.length ≤ branch.encode.length := branch.length_hashes_le
      _ ≤ data.length := hlen
      _ < UInt64.size := hdata.trans (by decide)

theorem saturatingMul_hashSize (k : Nat) :
    saturatingMul k (max hashSize 1) = min (32 * k) (2 ^ 64 - 1) := by
  rw [saturatingMul, hashSize, Nat.mul_comm k]
  rfl

/-- A product that is cut off at the largest number is refused all the same, since no input is as long
as that. -/
theorem fails_decode_of_count (hcount : c.Spans (VarInt.encode v) m) (hleft : m.remaining < 2 ^ 64 - 1)
    (hshort : m.remaining < 32 * v.toNat) :
    decode.Fails c (.truncatedInput "merkle_branch.count" (min (32 * v.toNat) (2 ^ 64 - 1)) m.remaining)
      c := by
  have hread : (varInt "merkle_branch.count").Returns c v m :=
    (recognises_varInt _ c v m).mpr ⟨_, hcount, trivial, rfl⟩
  have hrefused : m.remaining < saturatingMul v.toNat (max hashSize 1) := by
    rw [saturatingMul_hashSize]
    exact lt_min hshort hleft
  rw [← saturatingMul_hashSize]
  exact fails_bind.mpr (.inl (fails_count.mpr (.inr ⟨v, m, hread, hrefused, rfl, rfl⟩)))

/-- Wherever a cursor stands, a branch is read from the next bytes if and only if they are what is written
for it, and what is written is appended to what is there. A count for which the bytes behind it do not
suffice is refused with the number of bytes that it asks for, or the largest number if that is less, and
the cursor stays in front of it. -/
theorem decode_exact (hdata : data.length < 2 ^ 63) (pos : Nat) :
    (∀ {n : Nat}, pos + n ≤ data.length → ∀ branch,
      decode.Returns (.ofOffset data pos) branch (.ofOffset data (pos + n)) ↔
        (data.drop pos).take n = branch.encode) ∧
    (∀ out branch, encodeInto out branch = out ++ branch.encode) ∧
    ∀ {v : UInt64} {rest : List UInt8}, data.drop pos = VarInt.encode v ++ rest →
      rest.length < 32 * v.toNat →
      decode.Fails (.ofOffset data pos) (.truncatedInput "merkle_branch.count"
        (min (32 * v.toNat) (2 ^ 64 - 1)) rest.length) (.ofOffset data pos) := by
  refine ⟨fun hn branch => returns_decode_iff hdata hn, encodeInto_eq_append, ?_⟩
  intro v rest hrest hshort
  have hcount : (Cursor.ofOffset data pos).Spans (VarInt.encode v)
      ⟨pos + (VarInt.encode v).length, rest⟩ := ⟨hrest, rfl⟩
  have hlen := congrArg List.length hrest
  rw [List.length_drop, List.length_append] at hlen
  have hleft : rest.length < 2 ^ 64 - 1 := by omega
  exact fails_decode_of_count hcount hleft hshort

/-- Behind one byte stands a branch of one hash, and behind it the largest count that there is. -/
theorem decode_exact_largestCount :
    let branch : Branch := ⟨[.ofNat 7], -1⟩
    let data := 0x2a :: (branch.encode ++ List.replicate 9 0xff ++ [1, 2])
    data.length < 2 ^ 63 ∧ 1 + 37 ≤ data.length ∧
      decode.Returns (.ofOffset data 1) branch (.ofOffset data (1 + 37)) ∧
      data.drop 38 = VarInt.encode 0xffffffffffffffff ++ [1, 2] ∧
      [1, 2].length < 32 * (0xffffffffffffffff : UInt64).toNat ∧
      decode.Fails (.ofOffset data 38) (.truncatedInput "merkle_branch.count" 0xffffffffffffffff 2)
        (.ofOffset data 38) := by
  intro branch data
  have hdata : data.length < 2 ^ 63 := by decide
  have hn : 1 + 37 ≤ data.length := by decide
  have hcount : data.drop 38 = VarInt.encode 0xffffffffffffffff ++ [1, 2] := by decide
  have hshort : [1, 2].length < 32 * (0xffffffffffffffff : UInt64).toNat := by decide
  obtain ⟨hread, -, -⟩ := decode_exact hdata 1
  obtain ⟨-, -, hrefused⟩ := decode_exact hdata 38
  exact ⟨hdata, hn, (hread hn branch).mpr (by decide), hcount, hshort, hrefused hcount hshort⟩

end MergedMining.Merkle.Branch
