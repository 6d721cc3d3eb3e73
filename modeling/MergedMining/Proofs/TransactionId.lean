import MergedMining.Proofs.MerkleLevels
import MergedMining.Proofs.TransactionFormat

/-! What a transaction id commits to: everything but the witnesses. The id is the digest of the layout
without witnesses, and transactions that differ elsewhere have different bytes in that layout. -/
namespace MergedMining.Transaction

open Decoder

/-- The transaction with every stack emptied. -/
def withoutWitnesses (tx : Transaction) : Transaction :=
  { tx with inputs := tx.inputs.map Input.withoutWitness }

theorem layout_withoutWitnesses (tx : Transaction) : tx.withoutWitnesses.layout = .legacy := by
  rw [layout_eq_legacy]
  simp [withoutWitnesses, Input.withoutWitness]

theorem encodeLegacy_withoutWitnesses (tx : Transaction) :
    tx.withoutWitnesses.encodeLegacy = tx.encodeLegacy := by
  have hinputs : (tx.inputs.map Input.withoutWitness).flatMap Input.encode =
      tx.inputs.flatMap Input.encode := List.flatMap_map _ _ _
  simp [encodeLegacy, encodeAs, withoutWitnesses, VarInt.encodeLength, hinputs]

theorem txid_withoutWitnesses (tx : Transaction) : tx.withoutWitnesses.txid = tx.txid := by
  rw [txid, encodeLegacy_withoutWitnesses, txid]

theorem encode_withoutWitnesses (tx : Transaction) :
    tx.withoutWitnesses.encode = tx.encodeLegacy := by
  rw [encode, layout_withoutWitnesses]
  exact tx.encodeLegacy_withoutWitnesses

theorem Fits.withoutWitnesses {tx : Transaction} (h : tx.Fits) : tx.withoutWitnesses.Fits where
  inputs := by simpa [Transaction.withoutWitnesses] using h.inputs
  eachInput input hi := by
    obtain ⟨input', hi', rfl⟩ := List.mem_map.mp hi
    exact ⟨(h.eachInput input' hi').scriptSig, by simp [Input.withoutWitness, UInt64.size],
      by simp [Input.withoutWitness]⟩
  outputs := h.outputs
  eachOutput := h.eachOutput

/-- Reads the layout without witnesses. It does not look for the marker, so a count of no inputs is not
taken for one. -/
def decodeUnmarked : Decoder Transaction := do
  let version ← Decoder.int32 "tx.version"
  decodeBody Decoder.count version .legacy

theorem recognises_decodeUnmarked :
    decodeUnmarked.Recognises (.written encodeLegacy fun tx => tx.layout = .legacy ∧ tx.Fits) := by
  unfold decodeUnmarked
  refine Recognises.congr ((recognises_int32 _).bind fun version =>
    recognises_decodeBody lawful_count version .legacy) fun tx bs => ?_
  simp only [Grammar.written_seq, Grammar.written, body_legacy, true_and]
  constructor
  · intro h
    rcases h with ⟨version, _, rfl, rfl, hl, rfl⟩
    exact ⟨hl, by simp [encodeLegacy, encodeAs_eq]⟩
  · intro h
    rcases h with ⟨hl, rfl⟩
    exact ⟨tx.version, _, by simp [encodeLegacy, encodeAs_eq], rfl, hl, rfl⟩

variable {a b : Transaction}

theorem encodeLegacy_eq_iff (ha : a.Fits) (hb : b.Fits) :
    a.encodeLegacy = b.encodeLegacy ↔ a.withoutWitnesses = b.withoutWitnesses := by
  constructor
  · intro h
    rw [← a.encodeLegacy_withoutWitnesses, ← b.encodeLegacy_withoutWitnesses] at h
    exact recognises_decodeUnmarked.encode_injOn ⟨a.layout_withoutWitnesses, ha.withoutWitnesses⟩
      ⟨b.layout_withoutWitnesses, hb.withoutWitnesses⟩ h
  · intro h
    rw [← a.encodeLegacy_withoutWitnesses, h, b.encodeLegacy_withoutWitnesses]

theorem eq_or_collision_of_txid_eq (ha : a.Fits) (hb : b.Fits) (h : a.txid = b.txid) :
    a.withoutWitnesses = b.withoutWitnesses ∨ Collision a.encodeLegacy b.encodeLegacy := by
  by_cases he : a.encodeLegacy = b.encodeLegacy
  · exact .inl ((encodeLegacy_eq_iff ha hb).mp he)
  · exact .inr ⟨he, congrArg Hash256.bytes h⟩

theorem accepts_encodeLegacy (ha : a.Fits) (hi : a.inputs ≠ []) :
    decode.Accepts a.encodeLegacy a.withoutWitnesses := by
  have hi' : a.withoutWitnesses.inputs ≠ [] := by simpa [withoutWitnesses] using hi
  exact recognises_decode.accepts.mpr ⟨⟨hi', ha.withoutWitnesses⟩, a.encode_withoutWitnesses.symm⟩

/-- The bytes behind the ids of two transactions are the same if and only if the transactions are, up to
their witnesses, and equal ids of others come with a collision. Those bytes are read as the transaction
without its witnesses if it has an input, and that has the same id. -/
theorem txid_commits (ha : a.Fits) (hb : b.Fits) :
    (a.encodeLegacy = b.encodeLegacy ↔ a.withoutWitnesses = b.withoutWitnesses) ∧
    (a.txid = b.txid →
      a.withoutWitnesses = b.withoutWitnesses ∨ Collision a.encodeLegacy b.encodeLegacy) ∧
    (a.inputs ≠ [] →
      decode.Accepts a.encodeLegacy a.withoutWitnesses ∧ a.withoutWitnesses.txid = a.txid) := by
  refine ⟨encodeLegacy_eq_iff ha hb, eq_or_collision_of_txid_eq ha hb, ?_⟩
  intro hi
  exact ⟨accepts_encodeLegacy ha hi, a.txid_withoutWitnesses⟩

/-- The sample with another witness. -/
def resigned : Transaction where
  version := 2
  inputs :=
    [{ previousOutput := .null, scriptSig := [0x51], sequence := 0, witness := [[0xbb], []] }]
  outputs := [{ value := 5000000000, scriptPubkey := [0x51] }]
  lockTime := 0

theorem txid_commits_resigned :
    sample.Fits ∧ resigned.Fits ∧ sample ≠ resigned ∧
      sample.withoutWitnesses = resigned.withoutWitnesses ∧
      sample.encodeLegacy = resigned.encodeLegacy ∧ sample.txid = resigned.txid ∧
      (sample.withoutWitnesses = resigned.withoutWitnesses ∨
        Collision sample.encodeLegacy resigned.encodeLegacy) ∧
      sample.inputs ≠ [] ∧ decode.Accepts sample.encodeLegacy sample.withoutWitnesses ∧
      sample.withoutWitnesses.txid = sample.txid := by
  have hf : sample.Fits := fits_of_length_encode (by decide)
  have hf' : resigned.Fits := fits_of_length_encode (by decide)
  have hbare : sample.withoutWitnesses = resigned.withoutWitnesses := by decide
  have hi : sample.inputs ≠ [] := by decide
  obtain ⟨hbytes, hids, hread⟩ := txid_commits hf hf'
  have he : sample.encodeLegacy = resigned.encodeLegacy := hbytes.mpr hbare
  have hid : sample.txid = resigned.txid := congrArg Hash256.hash he
  exact ⟨hf, hf', by decide, hbare, he, hid, hids hid, hi, hread hi⟩

end MergedMining.Transaction
