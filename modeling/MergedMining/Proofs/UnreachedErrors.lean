import MergedMining.Proofs.CursorRuns
import MergedMining.Proofs.NamedFields
import MergedMining.Proofs.WireErrors

/-! Errors that no input leads to. What a guard has let pass is there when it is read, and of all the kinds
of errors the decoders of the wire format raise four. -/
namespace MergedMining

open Decoder

variable {c c' : Cursor} {e : DecodeError} {field : String} {needed remaining : Nat}

namespace Cursor

namespace Operation

/-- The fields that an error of the operation can name. -/
def fields : Operation → List String
  | bytes _ field | exactly _ field | uint8 field | uint16 field | uint32 field | uint64 field
  | int32 field | hash field | varInt field | count field _ => [field]
  | peek => []
  | header => Header.fields
  | transaction => Transaction.fields
  | branch => Merkle.Branch.fields
  | proof => AuxProof.fields
  | block => Block.fields

theorem mem_fields_of_fails (op : Operation) (hc : c.remaining < 2 ^ 64 - 1)
    (h : op.decoder.Fails c (.truncatedInput field needed remaining) c') : field ∈ op.fields := by
  have hf {f : String} : f ∈ [f] := List.mem_singleton_self f
  cases op with
  | bytes n f => exact ((failsShort_bytes n f).names hf).mem h
  | exactly n f => exact ((failsShort_exactly n f).names hf).mem h
  | uint8 f => exact ((failsShort_uint8 f).names hf).mem h
  | uint16 f => exact ((failsShort_uint16 f).names hf).mem h
  | uint32 f => exact ((failsShort_uint32 f).names hf).mem h
  | uint64 f => exact ((failsShort_uint64 f).names hf).mem h
  | int32 f => exact ((failsShort_int32 f).names hf).mem h
  | hash f => exact ((failsShort_hash f).names hf).mem h
  | varInt f => exact (Names.varInt hf).mem h
  | count f least => exact (Names.count hf least).mem h
  | peek => exact absurd (fails_map.mp h) not_fails_here
  | header => exact Header.names_decode.mem h
  | transaction => exact Transaction.names_decode.mem h
  | branch => exact Merkle.Branch.mem_fields_of_fails hc h
  | proof => exact AuxProof.mem_fields_of_fails hc h
  | block => exact Block.mem_fields_of_fails hc h

theorem confined_decoder (op : Operation) : op.decoder.Confined fun _ => True :=
  op.decoder_of_inherited Confined.wireInherited (fun _ => .report trivial)
    (Confined.inherited.map .here Cursor.peek) .varInt .transaction

/-- The errors that the operation can end with are errors of the wire format, and where bytes are missing,
they are missing at a field of its own. -/
structure Raises (op : Operation) (e : DecodeError) : Prop where
  isWire : e.IsWire
  mem_fields {field : String} {needed remaining : Nat}
    (h : e = .truncatedInput field needed remaining) : field ∈ op.fields

theorem raises_of_fails (op : Operation) (hc : c.remaining < 2 ^ 64 - 1)
    (h : op.decoder.Fails c e c') : op.Raises e where
  isWire := op.confined_decoder.errors c e h.1
  mem_fields he := by
    subst he
    exact op.mem_fields_of_fails hc h

/-- The operations that decode a part of a block or all of it. -/
def parts : List Operation := [header, transaction, branch, proof, block]

theorem not_mem_fields_of_mem_parts :
    ∀ op ∈ parts, "merkle_branch.hash" ∉ op.fields ∧ "tx.marker" ∉ op.fields := by
  decide

end Operation

/-- What a guard at `c` has let pass is there when it is read. -/
structure Settled (c : Cursor) : Prop where
  /-- With the count of a branch read, its hashes can be read, and what is left to fail is its mask. -/
  hashes {n : Nat} {m : Cursor}
    (h : (count "merkle_branch.count" Merkle.Branch.hashSize).Returns c n m) :
    ∃ hashes m', (times n (hash "merkle_branch.hash")).Returns m hashes m' ∧
      ∀ e c', Merkle.Branch.decode.Fails c e c' ↔ (int32 "merkle_branch.side_mask").Fails m' e c'
  script {field : String} {n : Nat} {m : Cursor} (h : (count field 1).Returns c n m) :
    ∃ script m', (bytes n field).Returns m script m'
  scriptLength {field : String} {e : DecodeError} {c' : Cursor} :
    (Transaction.decodeScript .count field).Fails c e c' ↔ (count field 1).Fails c e c'
  marker (h : c.peek = some 0) : (uint8 "tx.marker").Returns c 0 (c.advance 1)

theorem settled (hc : c.remaining < 2 ^ 64 - 1) : c.Settled where
  hashes h := by
    have hm := (remaining_le_of_count h).trans_lt hc
    obtain ⟨hashes, m', hread⟩ := Merkle.Branch.exists_hashes h hm
    refine ⟨hashes, m', hread, ?_⟩
    intro e c'
    exact Merkle.Branch.fails_decode_of_hashes h hread
  script h := Transaction.exists_script h ((remaining_le_of_count h).trans_lt hc)
  scriptLength := Transaction.fails_decodeScript_iff hc
  marker := Transaction.returns_marker

end Cursor

/-- Wherever a cursor stands in an input of less than `2 ^ 63` bytes, the hashes behind a count, a script
behind its length and a marker that has been seen are there. No count is too large for 64 bits. All that
an operation can end with are the errors of the wire format at fields of its own, and of the bytes of a
block also the one that some are left over. -/
theorem unreached_errors {data : List UInt8} (hdata : data.length < 2 ^ 63) (pos : Nat) :
    (Cursor.ofOffset data pos).Settled ∧ countBelow UInt64.size = count ∧
    (∀ (op : Cursor.Operation) (e : DecodeError) (c' : Cursor),
      op.decoder.Fails (.ofOffset data pos) e c' → op.Raises e) ∧
    (∀ op ∈ Cursor.Operation.parts, ∀ (needed remaining : Nat) (c' : Cursor),
      ¬ op.decoder.Fails (.ofOffset data pos)
          (.truncatedInput "merkle_branch.hash" needed remaining) c' ∧
        ¬ op.decoder.Fails (.ofOffset data pos)
          (.truncatedInput "tx.marker" needed remaining) c') ∧
    ∀ e, (Block.ofBytes data).result = .error e →
      e.IsWire ∨ ∃ n, e = .format (.trailingBytes n) := by
  have hc : (Cursor.ofOffset data pos).remaining < 2 ^ 64 - 1 := by
    rw [Cursor.remaining_ofOffset]
    omega
  refine ⟨Cursor.settled hc, countBelow_size, ?_, ?_, fun e => Block.isWire_or_trailingBytes⟩
  · intro op e c' h
    exact op.raises_of_fails hc h
  · intro op hop needed remaining c'
    obtain ⟨hhash, hmarker⟩ := Cursor.Operation.not_mem_fields_of_mem_parts op hop
    constructor
    · intro h
      exact hhash (op.mem_fields_of_fails hc h)
    · intro h
      exact hmarker (op.mem_fields_of_fails hc h)

/-- Behind a zero stands a branch of two hashes that ends in the middle of its mask. -/
theorem unreached_errors_cutMask :
    let data : List UInt8 := 0 :: 2 :: (List.replicate 64 7 ++ [1, 0])
    let h : Hash256 := ⟨List.replicate 32 7, rfl⟩
    data.length < 2 ^ 63 ∧ (uint8 "tx.marker").Returns (.ofOffset data 0) 0 (.ofOffset data 1) ∧
      (count "merkle_branch.count" Merkle.Branch.hashSize).Returns (.ofOffset data 1) 2
        (.ofOffset data 2) ∧
      (times 2 (hash "merkle_branch.hash")).Returns (.ofOffset data 2) [h, h] (.ofOffset data 66) ∧
      Merkle.Branch.decode.Fails (.ofOffset data 1)
        (.truncatedInput "merkle_branch.side_mask" 4 2) (.ofOffset data 66) ∧
      Cursor.Operation.branch.Raises (.truncatedInput "merkle_branch.side_mask" 4 2) := by
  intro data h
  have hdata : data.length < 2 ^ 63 := by decide
  have hcount : (count "merkle_branch.count" Merkle.Branch.hashSize).Returns (.ofOffset data 1) 2
      (.ofOffset data 2) := ⟨by decide, by decide⟩
  have hread : (times 2 (hash "merkle_branch.hash")).Returns (.ofOffset data 2) [h, h]
      (.ofOffset data 66) := ⟨by decide, by decide⟩
  obtain ⟨hfront, -⟩ := unreached_errors hdata 0
  obtain ⟨hbranch, -, hraises, -⟩ := unreached_errors hdata 1
  obtain ⟨_, _, hhashes, hfails⟩ := hbranch.hashes hcount
  obtain ⟨rfl, rfl⟩ := hread.unique hhashes
  have hmask := (failsShort_int32 "merkle_branch.side_mask" (.ofOffset data 66) _ _).mpr
    ⟨by decide, rfl, rfl⟩
  have hfail := (hfails _ _).mpr hmask
  exact ⟨hdata, hfront.marker rfl, hcount, hread, hfail, hraises .branch _ _ hfail⟩

end MergedMining
