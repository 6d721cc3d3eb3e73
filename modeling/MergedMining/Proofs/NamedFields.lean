import MergedMining.Proofs.Delegation
import MergedMining.Proofs.SettledReads

/-! The fields that errors name. Bytes can be found missing at any field of a block that is not there
already once a guard has been passed, and at no other. -/
namespace MergedMining

open Decoder

/-- The fields at which a header can be too short. -/
def Header.fields : List String :=
  ["header.version", "header.prev_block_hash", "header.merkle_root", "header.timestamp", "header.bits",
    "header.nonce"]

def Transaction.fields : List String :=
  ["tx.version", "tx.flag", "tx.input_count", "tx.input.prev_txid", "tx.input.prev_vout",
    "tx.input.script_sig", "tx.input.sequence", "tx.output_count", "tx.output.value",
    "tx.output.script_pubkey", "tx.witness.item_count", "tx.witness.item", "tx.lock_time"]

def Merkle.Branch.fields : List String := ["merkle_branch.count", "merkle_branch.side_mask"]

def AuxProof.fields : List String :=
  Transaction.fields ++ ["auxpow.block_hash"] ++ Merkle.Branch.fields ++ Header.fields

def Block.fields : List String := AuxProof.fields ++ ["block.tx_count"]

namespace Decoder

variable {α β : Type} {fields : List String} {field : String}

/-- When it runs out of bytes, the decoder names one of the fields. -/
structure Names (fields : List String) (d : Decoder α) : Prop where
  mem {c c' : Cursor} {field : String} {needed remaining : Nat}
    (h : d.Fails c (.truncatedInput field needed remaining) c') : field ∈ fields

theorem FailsShort.names {width : Nat} {d : Decoder α} (h : d.FailsShort width field)
    (hfield : field ∈ fields) : d.Names fields where
  mem hf := by
    obtain ⟨-, he, -⟩ := (h _ _ _).mp hf
    cases he
    exact hfield

namespace Names

variable {d : Decoder α} {f : α → Decoder β}

theorem pure (a : α) : (pure a : Decoder α).Names fields where
  mem h := absurd h not_fails_pure

theorem refuse (error : FormatError) : (fail (.format error) : Decoder α).Names fields where
  mem h := by cases (fails_fail.mp h).1

theorem bind (hd : d.Names fields) (hf : ∀ a, (f a).Names fields) : (d >>= f).Names fields where
  mem h := by
    rcases fails_bind.mp h with h | ⟨a, m, -, h⟩
    · exact hd.mem h
    · exact (hf a).mem h

theorem times (hd : d.Names fields) (n : Nat) : (times n d).Names fields where
  mem h := by
    obtain ⟨_, _, _, _, -, h⟩ := fails_times.mp h
    exact hd.mem h

theorem varInt (hfield : field ∈ fields) : (varInt field).Names fields where
  mem h := by
    rcases fails_varInt.mp h with h | ⟨_, _, form, -, -, h | ⟨_, _, -, -, he, -⟩⟩
    · exact ((failsShort_uint8 field).names hfield).mem h
    · exact ((failsShort_number form.width field).names hfield).mem h
    · cases he

theorem count (hfield : field ∈ fields) (least : Nat) : (count field least).Names fields where
  mem h := by
    rcases fails_count.mp h with h | ⟨_, _, -, -, he, -⟩
    · exact (varInt hfield).mem h
    · cases he
      exact hfield

end Names

end Decoder

theorem Header.names_decode : Header.decode.Names Header.fields := by
  unfold Header.decode
  exact ((failsShort_int32 _).names (by decide)).bind fun version =>
    ((failsShort_hash _).names (by decide)).bind fun prev =>
    ((failsShort_hash _).names (by decide)).bind fun root =>
    ((failsShort_uint32 _).names (by decide)).bind fun time =>
    ((failsShort_uint32 _).names (by decide)).bind fun bits =>
    ((failsShort_uint32 _).names (by decide)).bind fun nonce => .pure _

namespace Transaction

theorem names_decodeScript {fields : List String} {field : String} (hfield : field ∈ fields) :
    (decodeScript .count field).Names fields :=
  (Names.count hfield 1).bind fun n => (failsShort_bytes n field).names hfield

theorem names_decodeStack : (decodeStack .count).Names fields :=
  (Names.count (by decide) 1).bind fun n => (names_decodeScript (by decide)).times n

theorem Input.names_decode : (Input.decode .count).Names fields := by
  unfold Input.decode
  exact ((failsShort_hash _).names (by decide)).bind fun txid =>
    ((failsShort_uint32 _).names (by decide)).bind fun vout =>
    (names_decodeScript (by decide)).bind fun scriptSig =>
    ((failsShort_uint32 _).names (by decide)).bind fun sequence => .pure _

theorem Output.names_decode : (Output.decode .count).Names fields := by
  unfold Output.decode
  exact ((failsShort_uint64 _).names (by decide)).bind fun value =>
    (names_decodeScript (by decide)).bind fun script => .pure _

/-- The marker is not among the fields. -/
theorem names_decodeLayout : decodeLayout.Names fields where
  mem h := by
    obtain ⟨-, h | ⟨_, -, -, he⟩⟩ := fails_decodeLayout_iff.mp h
    · exact ((failsShort_uint8 "tx.flag").names (by decide)).mem h
    · cases he

theorem names_decodeWitnesses (layout : Layout) (bare : List Input) :
    (decodeWitnesses .count layout bare).Names fields := by
  cases layout with
  | legacy => exact .pure bare
  | witness =>
    apply (names_decodeStack.times bare.length).bind
    intro ws
    split_ifs
    · exact .refuse _
    · exact .pure _

theorem names_decode : decode.Names fields := by
  unfold decode decodeCounting
  exact ((failsShort_int32 _).names (by decide)).bind fun version =>
    names_decodeLayout.bind fun layout =>
    (Names.count (by decide) _).bind fun n => (Input.names_decode.times n).bind fun bare =>
    (Names.count (by decide) _).bind fun m => (Output.names_decode.times m).bind fun outputs =>
    (names_decodeWitnesses layout bare).bind fun inputs =>
    ((failsShort_uint32 _).names (by decide)).bind fun lockTime => .pure _

end Transaction

variable {c c' : Cursor} {field : String} {needed remaining : Nat}

theorem Merkle.Branch.mem_fields_of_fails (hc : c.remaining < 2 ^ 64 - 1)
    (h : decode.Fails c (.truncatedInput field needed remaining) c') : field ∈ fields := by
  rcases (fails_decode_iff hc).mp h with h | ⟨_, _, _, _, -, -, h⟩
  · exact (Names.count (by decide) _).mem h
  · exact ((failsShort_int32 _).names (by decide)).mem h

theorem AuxProof.mem_fields_of_fails (hc : c.remaining < 2 ^ 64 - 1)
    (h : decode.Fails c (.truncatedInput field needed remaining) c') : field ∈ fields := by
  have hhash := recognises_hash "auxpow.block_hash"
  have hbranch := Merkle.Branch.recognises_decode
  simp only [fields, List.mem_append]
  obtain ⟨_, h⟩ := fails_decodeWith.mp h
  cases h with
  | coinbaseTx h => exact .inl (.inl (.inl (Transaction.names_decode.mem h)))
  | blockHash _ h =>
    exact .inl (.inl (.inr (((failsShort_hash _).names (by decide)).mem h)))
  | @coinbaseBranch _ _ _ m₁ htx hh h =>
    have hm : m₁.remaining ≤ c.remaining :=
      (hhash.remaining_le hh).trans (Transaction.recognises_decode.remaining_le htx)
    exact .inl (.inr (Merkle.Branch.mem_fields_of_fails (hm.trans_lt hc) h))
  | @blockchainBranch _ _ _ m₁ _ m₂ htx hh hcb h =>
    have hm : m₁.remaining ≤ c.remaining :=
      (hhash.remaining_le hh).trans (Transaction.recognises_decode.remaining_le htx)
    have hm₂ : m₂.remaining ≤ c.remaining := (hbranch.remaining_le hcb).trans hm
    exact .inl (.inr (Merkle.Branch.mem_fields_of_fails (hm₂.trans_lt hc) h))
  | parentHeader _ _ _ _ h => exact .inr (Header.names_decode.mem h)

theorem Block.mem_fields_of_fails (hc : c.remaining < 2 ^ 64 - 1)
    (h : decode.Fails c (.truncatedInput field needed remaining) c') : field ∈ fields := by
  simp only [fields, AuxProof.fields, List.mem_append]
  obtain ⟨_, h⟩ := fails_decodeWith.mp h
  cases h with
  | header h => exact .inl (.inr (Header.names_decode.mem h))
  | auxPow hh _ h =>
    have hm := (Header.recognises_decode.remaining_le hh).trans_lt hc
    have hproof := AuxProof.mem_fields_of_fails hm (AuxProof.fails_decodeWith.mpr ⟨_, h⟩)
    simp only [AuxProof.fields, List.mem_append] at hproof
    exact .inl hproof
  | txCount _ _ h => exact .inr ((Names.count (by decide) _).mem h)
  | transaction _ _ _ _ _ h =>
    exact .inl (.inl (.inl (.inl (Transaction.names_decode.mem h))))

namespace DecodeError

/-- The field for which too few bytes remain. -/
def field? : DecodeError → Option String
  | .truncatedInput field _ _ => some field
  | _ => none

theorem field?_eq_some_iff {e : DecodeError} :
    e.field? = some field ↔ ∃ needed remaining, e = .truncatedInput field needed remaining := by
  cases e <;> simp [field?]

end DecodeError

namespace Block

/-- The field at which the decoder is stopped by the end of `data`. -/
def stoppedAt (data : List UInt8) : Option String :=
  match (decode (.ofBytes data)).result with
  | .error e => e.field?
  | .ok _ => none

theorem stoppedAt_eq_some_iff {data : List UInt8} : stoppedAt data = some field ↔
    ∃ needed remaining c', decode.Fails (.ofBytes data) (.truncatedInput field needed remaining) c' := by
  unfold stoppedAt
  cases h : (decode (.ofBytes data)).result with
  | error e => simp [DecodeError.field?_eq_some_iff, Fails, h]
  | ok b => simp [Fails, h]

/-- A block whose own transaction begins with an input and an output that are longer than the counts
make sure of, so that those behind them can be cut short. -/
def uneven : Block Transaction Header :=
  { sample with
    transactions := [
      { version := 1
        inputs := [
          { previousOutput := .null, scriptSig := List.replicate 40 0, sequence := 0, witness := [] },
          { previousOutput := .null, scriptSig := [], sequence := 0, witness := [] }]
        outputs := [
          { value := 0, scriptPubkey := List.replicate 8 0 },
          { value := 0, scriptPubkey := [] }]
        lockTime := 0 }] }

/-- For each field, a length at which the block ends in front of it or inside of it. -/
def cuts : List Nat :=
  [80, 85, 84, 389, 420, 424, 128, 129, 448, 139, 140, 142, 143, 147, 179, 212, 0, 4, 36, 68, 72, 76, 301]

theorem map_stoppedAt_cuts :
    (cuts.map fun n => stoppedAt (uneven.encode.take n)) = fields.map some := by
  decide +kernel

/-- The fields are those that can be found missing, and no others. -/
theorem mem_fields_iff : field ∈ fields ↔
    ∃ (data : List UInt8) (pos needed remaining : Nat) (c' : Cursor), data.length < 2 ^ 63 ∧
      decode.Fails (.ofOffset data pos) (.truncatedInput field needed remaining) c' := by
  constructor
  · intro h
    have hmem : some field ∈ fields.map some := List.mem_map_of_mem h
    rw [← map_stoppedAt_cuts] at hmem
    obtain ⟨n, -, hn⟩ := List.mem_map.mp hmem
    obtain ⟨needed, remaining, c', hfails⟩ := stoppedAt_eq_some_iff.mp hn
    refine ⟨_, 0, needed, remaining, c', ?_, hfails⟩
    have hlen : uneven.encode.length < 2 ^ 63 := by decide +kernel
    exact (List.length_take_le' _ _).trans_lt hlen
  · intro h
    obtain ⟨data, pos, needed, remaining, c', hdata, hfails⟩ := h
    have hc : (Cursor.ofOffset data pos).remaining < 2 ^ 64 - 1 := by
      rw [Cursor.remaining_ofOffset]
      omega
    exact mem_fields_of_fails hc hfails

end Block

end MergedMining
