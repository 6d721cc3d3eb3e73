import MergedMining.Json.Forms
import MergedMining.Proofs.BlockFormat
import MergedMining.Proofs.HexText

/-! Blocks and their parts are read back from their JSON forms, whatever the order in which an object
keeps its fields. -/
namespace MergedMining

namespace Json

/-- The second value is the first with the fields of its objects in any order, at any depth: what is
found under a key does not depend on the order. -/
inductive Reordered : Json → Json → Prop
  | refl (j : Json) : Reordered j j
  | array {items items' : List Json} (h : List.Forall₂ Reordered items items') :
      Reordered (.array items) (.array items')
  | object {fields fields' : List (String × Json)}
      (h : ∀ key, Option.Rel Reordered (fields.lookup key) (fields'.lookup key)) :
      Reordered (.object fields) (.object fields')

theorem lookup_perm {fields fields' : List (String × Json)} (h : fields.Perm fields')
    (hkeys : (fields.map Prod.fst).Nodup) (key : String) : fields.lookup key = fields'.lookup key := by
  induction h with
  | nil => rfl
  | cons field _ ih =>
    rw [List.map_cons, List.nodup_cons] at hkeys
    rw [List.lookup, List.lookup, ih hkeys.2]
  | swap field field' fields =>
    obtain ⟨name, value⟩ := field
    obtain ⟨name', value'⟩ := field'
    have hne : name' ≠ name := by
      intro he
      simp [he] at hkeys
    by_cases hname : key = name
    · simp [List.lookup, hname, beq_false_of_ne hne.symm]
    · simp [List.lookup, beq_false_of_ne hname]
  | trans hfirst _ ih ih' =>
    exact (ih hkeys).trans (ih' ((hfirst.map Prod.fst).nodup hkeys))

namespace Reordered

variable {j : Json}

theorem eq_null (h : null.Reordered j) : j = null := by
  cases h
  rfl

theorem eq_int {n : Int} (h : (int n).Reordered j) : j = int n := by
  cases h
  rfl

theorem eq_string {s : String} (h : (string s).Reordered j) : j = string s := by
  cases h
  rfl

theorem exists_array {items : List Json} (h : (Json.array items).Reordered j) :
    ∃ items', j = .array items' ∧ List.Forall₂ Reordered items items' := by
  cases h with
  | refl => exact ⟨items, rfl, List.forall₂_same.mpr fun item _ => refl item⟩
  | array h => exact ⟨_, rfl, h⟩

theorem exists_object {fields : List (String × Json)} (h : (Json.object fields).Reordered j) :
    ∃ fields', j = .object fields' ∧
      ∀ key, Option.Rel Reordered (fields.lookup key) (fields'.lookup key) := by
  cases h with
  | refl =>
    refine ⟨fields, rfl, fun key => ?_⟩
    cases fields.lookup key with
    | none => exact .none
    | some value => exact .some (refl value)
  | object h => exact ⟨_, rfl, h⟩

theorem ne_null {j' : Json} (h : j.Reordered j') (hj : j ≠ null) : j' ≠ null := by
  cases h with
  | refl => exact hj
  | array h => nofun
  | object h => nofun

theorem exists_some {found : Option Json} (h : Option.Rel Reordered (some j) found) :
    ∃ j', found = some j' ∧ j.Reordered j' := by
  cases h with
  | some h => exact ⟨_, rfl, h⟩

theorem eq_none {found : Option Json} (h : Option.Rel Reordered none found) : found = none := by
  cases h
  rfl

theorem object_of_perm {fields fields' : List (String × Json)} (h : fields.Perm fields')
    (hkeys : (fields.map Prod.fst).Nodup) : (Json.object fields).Reordered (.object fields') := by
  apply object
  intro key
  rw [lookup_perm h hkeys]
  cases fields'.lookup key with
  | none => exact .none
  | some value => exact .some (refl value)

end Reordered

end Json

/-- Every value is read back from its JSON form in any order of the fields. -/
class LawfulJson (α : Type) [ToJson α] [FromJson α] : Prop where
  fromJson_of_reordered : ∀ {a : α} {j : Json}, (toJson a).Reordered j → fromJson j = .ok a

export LawfulJson (fromJson_of_reordered)

open Json

section Scalars

theorem readInt_of_reordered {expected : String} {n low high : Int} {j : Json}
    (h : (Json.int n).Reordered j) (hn : low ≤ n ∧ n ≤ high) : readInt expected low high j = .ok n := by
  rw [h.eq_int, readInt, if_pos hn]

instance : LawfulJson UInt8 where
  fromJson_of_reordered {n j} h := by
    have hn : n.toNat < 2 ^ 8 := n.toNat_lt
    have hr : readInt "u8" 0 0xff j = .ok n.toNat := readInt_of_reordered h (by omega)
    simp [fromJson, hr]

instance : LawfulJson UInt32 where
  fromJson_of_reordered {n j} h := by
    have hn : n.toNat < 2 ^ 32 := n.toNat_lt
    have hr : readInt "u32" 0 0xffffffff j = .ok n.toNat := readInt_of_reordered h (by omega)
    simp [fromJson, hr]

instance : LawfulJson UInt64 where
  fromJson_of_reordered {n j} h := by
    have hn : n.toNat < 2 ^ 64 := n.toNat_lt
    have hr : readInt "u64" 0 0xffffffffffffffff j = .ok n.toNat := readInt_of_reordered h (by omega)
    simp [fromJson, hr]

instance : LawfulJson Int32 where
  fromJson_of_reordered {n j} h := by
    have hlow : -2 ^ 31 ≤ n.toInt := n.le_toInt
    have hhigh : n.toInt < 2 ^ 31 := n.toInt_lt
    have hr : readInt "i32" (-0x80000000) 0x7fffffff j = .ok n.toInt :=
      readInt_of_reordered h (by omega)
    simp [fromJson, hr]

theorem readHex_of_reordered {bytes : List UInt8} {j : Json} (h : (ofHex bytes).Reordered j) :
    readHex j = .ok bytes := by
  rw [ofHex] at h
  simp [h.eq_string, readHex, readString, bind, Except.bind, Hex.decode_encode]

instance : LawfulJson Hash256 where
  fromJson_of_reordered {hash j} h := by
    obtain rfl := Reordered.eq_string h
    simp [fromJson, readString, bind, Except.bind, Hash256.ofDisplay_display]

theorem mapM_fromJson_of_reordered {α : Type} [ToJson α] [FromJson α] [LawfulJson α] {as : List α}
    {items : List Json} (h : List.Forall₂ Reordered (as.map toJson) items) :
    items.mapM fromJson = (.ok as : Except Json.Error (List α)) := by
  rw [List.forall₂_map_left_iff] at h
  induction h with
  | nil => rfl
  | cons hitem _ ih =>
    rw [List.mapM_cons, fromJson_of_reordered hitem, ih]
    rfl

instance {α : Type} [ToJson α] [FromJson α] [LawfulJson α] : LawfulJson (List α) where
  fromJson_of_reordered {as j} h := by
    obtain ⟨items, rfl, hitems⟩ := Reordered.exists_array h
    exact mapM_fromJson_of_reordered hitems

end Scalars

section Records

variable {α : Type} [ToJson α] [FromJson α] [LawfulJson α] {names : List String}
  {fields : List (String × Json)} {name : String} {a : α}

theorem required_of_reordered
    (h : Option.Rel Reordered (some (toJson a)) (fields.lookup name)) :
    (Fields.mk names (.byName fields)).required name = .valid a := by
  obtain ⟨j, hl, hj⟩ := Reordered.exists_some h
  simp [Fields.required, Fields.get?, Fields.check, hl, fromJson_of_reordered hj]

theorem requiredAs_of_reordered {bytes : List UInt8}
    (h : Option.Rel Reordered (some (ofHex bytes)) (fields.lookup name)) :
    (Fields.mk names (.byName fields)).requiredAs name readHex = .valid bytes := by
  obtain ⟨j, hl, hj⟩ := Reordered.exists_some h
  simp [Fields.requiredAs, Fields.get?, Fields.check, hl, readHex_of_reordered hj]

theorem optional_of_reordered {default : α}
    (h : Option.Rel Reordered (some (toJson a)) (fields.lookup name) ∨
      Option.Rel Reordered none (fields.lookup name) ∧ a = default) :
    (Fields.mk names (.byName fields)).optional name default = .valid a := by
  rcases h with h | ⟨h, rfl⟩
  · obtain ⟨j, hl, hj⟩ := Reordered.exists_some h
    simp [Fields.optional, Fields.get?, Fields.check, hl, fromJson_of_reordered hj]
  · simp [Fields.optional, Fields.get?, Reordered.eq_none h]

/-- A field that may be null is told apart from null if no value is written as null. -/
theorem nullable_of_reordered {o : Option α} (hnull : ∀ a : α, toJson a ≠ .null)
    (h : Option.Rel Reordered (some ((o.map toJson).getD .null)) (fields.lookup name)) :
    (Fields.mk names (.byName fields)).nullable name = .valid o := by
  obtain ⟨j, hl, hj⟩ := Reordered.exists_some h
  have hr : Fields.readNullable j = .ok o := by
    cases o with
    | none => rw [hj.eq_null, Fields.readNullable]
    | some a =>
      rw [Fields.readNullable, fromJson_of_reordered hj]
      · rfl
      · exact hj.ne_null (hnull a)
  simp [Fields.nullable, Fields.get?, Fields.check, hl, hr]

end Records

theorem readRecord_object {α : Type} {name : String} {names : List String}
    {build : Fields → Checked α} {fields : List (String × Json)} {a : α}
    (h : build ⟨names, .byName fields⟩ = .valid a) :
    readRecord name names build (.object fields) = .ok a := by
  rw [readRecord, h]

instance : LawfulJson Header where
  fromJson_of_reordered {header j} h := by
    obtain ⟨fields, rfl, hf⟩ := Reordered.exists_object h
    apply readRecord_object
    rw [required_of_reordered (hf "version"), required_of_reordered (hf "prev_block_hash"),
      required_of_reordered (hf "merkle_root"), required_of_reordered (hf "timestamp"),
      required_of_reordered (hf "bits"), required_of_reordered (hf "nonce")]
    rfl

instance : LawfulJson OutPoint where
  fromJson_of_reordered {outPoint j} h := by
    obtain ⟨fields, rfl, hf⟩ := Reordered.exists_object h
    apply readRecord_object
    rw [required_of_reordered (hf "txid"), required_of_reordered (hf "vout")]
    rfl

instance : LawfulJson Transaction.Input where
  fromJson_of_reordered {input j} h := by
    obtain ⟨fields, rfl, hf⟩ := Reordered.exists_object h
    have hwitness : Option.Rel Reordered (some (toJson input.witness)) (fields.lookup "witness") ∨
        Option.Rel Reordered none (fields.lookup "witness") ∧ input.witness = [] := by
      have hw := hf "witness"
      by_cases he : input.witness.isEmpty = true
      · rw [if_pos he] at hw
        exact .inr ⟨hw, List.isEmpty_iff.mp he⟩
      · rw [if_neg he] at hw
        exact .inl hw
    apply readRecord_object
    rw [required_of_reordered (hf "previous_output"), requiredAs_of_reordered (hf "script_sig"),
      required_of_reordered (hf "sequence"), optional_of_reordered hwitness]
    rfl

instance : LawfulJson Transaction.Output where
  fromJson_of_reordered {output j} h := by
    obtain ⟨fields, rfl, hf⟩ := Reordered.exists_object h
    apply readRecord_object
    rw [required_of_reordered (hf "value"), requiredAs_of_reordered (hf "script_pubkey")]
    rfl

instance : LawfulJson Transaction where
  fromJson_of_reordered {tx j} h := by
    obtain ⟨fields, rfl, hf⟩ := Reordered.exists_object h
    apply readRecord_object
    rw [required_of_reordered (hf "version"), required_of_reordered (hf "inputs"),
      required_of_reordered (hf "outputs"), required_of_reordered (hf "lock_time")]
    rfl

instance : LawfulJson Merkle.Branch where
  fromJson_of_reordered {branch j} h := by
    obtain ⟨fields, rfl, hf⟩ := Reordered.exists_object h
    apply readRecord_object
    rw [required_of_reordered (hf "hashes"), required_of_reordered (hf "side_mask")]
    rfl

section Codec

variable {T H : Type} [ToJson T] [FromJson T] [LawfulJson T] [ToJson H] [FromJson H] [LawfulJson H]

instance : LawfulJson (AuxProof T H) where
  fromJson_of_reordered {aux j} h := by
    obtain ⟨fields, rfl, hf⟩ := Reordered.exists_object h
    apply readRecord_object
    rw [required_of_reordered (hf "coinbase_tx"), required_of_reordered (hf "block_hash"),
      required_of_reordered (hf "coinbase_branch"), required_of_reordered (hf "blockchain_branch"),
      required_of_reordered (hf "parent_header")]
    rfl

instance : LawfulJson (Block T H) where
  fromJson_of_reordered {block j} h := by
    obtain ⟨fields, rfl, hf⟩ := Reordered.exists_object h
    have hnull : ∀ aux : AuxProof T H, toJson aux ≠ .null := nofun
    apply readRecord_object
    rw [required_of_reordered (hf "header"), nullable_of_reordered hnull (hf "aux_pow"),
      required_of_reordered (hf "transactions")]
    rfl

end Codec

/-- A value is read back from its JSON form as it is written, and with the fields of its objects in any
other order. -/
def ReadBack {α : Type} [ToJson α] [FromJson α] (a : α) : Prop :=
  fromJson (toJson a) = .ok a ∧ ∀ j, (toJson a).Reordered j → fromJson j = .ok a

theorem LawfulJson.readBack {α : Type} [ToJson α] [FromJson α] [LawfulJson α] (a : α) :
    ReadBack a :=
  ⟨fromJson_of_reordered (.refl _), fun _ h => fromJson_of_reordered h⟩

theorem Transaction.Input.field?_witness_eq_none_iff (input : Transaction.Input) :
    (toJson input).field? "witness" = none ↔ input.witness = [] := by
  have hfield : (toJson input).field? "witness" =
      (if input.witness.isEmpty then [] else [("witness", toJson input.witness)]).lookup "witness" :=
    rfl
  cases hw : input.witness <;> simp [hfield, hw]

theorem Block.field?_auxPow_eq_null_iff (block : Block Transaction Header) :
    (toJson block).field? "aux_pow" = some .null ↔ block.auxPow = none := by
  have hfield : (toJson block).field? "aux_pow" = some ((block.auxPow.map toJson).getD .null) := rfl
  rw [hfield]
  cases block.auxPow with
  | none => simp
  | some aux =>
    have hnull : toJson aux ≠ .null := nofun
    simp [hnull]

/-- Blocks and their parts are read back whatever their fields hold, and what is left out or written as
null is exactly an empty witness and an absent proof. -/
theorem readBack_block_and_parts :
    (∀ block : Block Transaction Header, ReadBack block) ∧
    (∀ aux : AuxProof Transaction Header, ReadBack aux) ∧
    (∀ branch : Merkle.Branch, ReadBack branch) ∧
    (∀ tx : Transaction, ReadBack tx) ∧
    (∀ input : Transaction.Input, ReadBack input) ∧
    (∀ output : Transaction.Output, ReadBack output) ∧
    (∀ outPoint : OutPoint, ReadBack outPoint) ∧
    (∀ header : Header, ReadBack header) ∧
    (∀ hash : Hash256, ReadBack hash) ∧
    (∀ input : Transaction.Input,
      (toJson input).field? "witness" = none ↔ input.witness = []) ∧
    (∀ block : Block Transaction Header,
      (toJson block).field? "aux_pow" = some .null ↔ block.auxPow = none) :=
  ⟨LawfulJson.readBack, LawfulJson.readBack, LawfulJson.readBack, LawfulJson.readBack,
    LawfulJson.readBack, LawfulJson.readBack, LawfulJson.readBack, LawfulJson.readBack,
    LawfulJson.readBack, Transaction.Input.field?_witness_eq_none_iff,
    Block.field?_auxPow_eq_null_iff⟩

/-- The fields of the block sorted by their keys. -/
theorem Block.sample_of_sorted_json :
    fromJson (.object [("aux_pow", (sample.auxPow.map toJson).getD .null),
      ("header", toJson sample.header), ("transactions", toJson sample.transactions)]) =
      .ok sample := by
  apply (readBack_block_and_parts.1 sample).2
  apply Reordered.object_of_perm (.swap _ _ _)
  simp

end MergedMining
