import MergedMining.Proofs.Delegation
import MergedMining.Proofs.TransactionLayouts

/-! Which bytes of its input a block was read from, and that its identifiers are hashes of those bytes:
of the header as it was received, and of a transaction as it was received without its witnesses. -/
namespace MergedMining

open Decoder

theorem Cursor.Spans.unique {c c' : Cursor} {s t : List UInt8} (hs : c.Spans s c')
    (ht : c.Spans t c') : s = t :=
  List.append_cancel_right (hs.1.symm.trans ht.1)

namespace Decoder

variable {α σ : Type} {d : Decoder α} {E : Grammar α} {c c' : Cursor}

/-- Started at `c`, the decoder gives `a`, stops at `c'`, and has read `bs`. -/
def Takes (d : Decoder α) (c : Cursor) (a : α) (bs : List UInt8) (c' : Cursor) : Prop :=
  d.Returns c a c' ∧ c.Spans bs c'

theorem Recognises.takes_iff (hd : d.Recognises E) {a : α} {bs : List UInt8} :
    d.Takes c a bs c' ↔ c.Spans bs c' ∧ E a bs := by
  constructor
  · intro h
    obtain ⟨hret, hs⟩ := h
    obtain ⟨bs', hs', ha⟩ := (hd c a c').mp hret
    obtain rfl := hs.unique hs'
    exact ⟨hs, ha⟩
  · intro h
    obtain ⟨hs, ha⟩ := h
    exact ⟨(hd c a c').mpr ⟨bs, hs, ha⟩, hs⟩

theorem Recognises.exists_takes (hd : d.Recognises E) {a : α} (h : d.Returns c a c') :
    ∃ bs, d.Takes c a bs c' := by
  obtain ⟨bs, hs, -⟩ := (hd c a c').mp h
  exact ⟨bs, h, hs⟩

/-- Values that are read one behind the other, each from a piece of its own. -/
inductive Chain (R : Cursor → α → σ → Cursor → Prop) : Cursor → List α → List σ → Cursor → Prop
  | nil (c : Cursor) : Chain R c [] [] c
  | cons {c m c' : Cursor} {a : α} {piece : σ} {as : List α} {pieces : List σ}
      (head : R c a piece m) (tail : Chain R m as pieces c') :
      Chain R c (a :: as) (piece :: pieces) c'

variable {R : Cursor → α → σ → Cursor → Prop}

theorem exists_chain_of_times (hR : ∀ {c a c'}, d.Returns c a c' → ∃ piece, R c a piece c') {n : Nat}
    {as : List α} (h : (times n d).Returns c as c') :
    as.length = n ∧ ∃ pieces, Chain R c as pieces c' := by
  induction n generalizing c as with
  | zero =>
    obtain ⟨rfl, rfl⟩ := returns_pure.mp h
    exact ⟨rfl, [], .nil _⟩
  | succ n ih =>
    obtain ⟨a, m, ha, h⟩ := returns_bind.mp h
    obtain ⟨as, m', has, h⟩ := returns_bind.mp h
    obtain ⟨rfl, rfl⟩ := returns_pure.mp h
    obtain ⟨piece, hpiece⟩ := hR ha
    obtain ⟨rfl, pieces, hpieces⟩ := ih has
    exact ⟨rfl, piece :: pieces, .cons hpiece hpieces⟩

theorem Chain.forall₂ {P : α → σ → Prop} (hP : ∀ {c a piece c'}, R c a piece c' → P a piece)
    {as : List α} {pieces : List σ} (h : Chain R c as pieces c') : List.Forall₂ P as pieces := by
  induction h with
  | nil => exact .nil
  | cons head tail ih => exact .cons (hP head) ih

end Decoder

namespace Transaction

/-- The bytes of a transaction, section by section. -/
structure Sections where
  version : List UInt8
  /-- Marker and flag. -/
  marker : List UInt8
  inputs : List UInt8
  outputs : List UInt8
  /-- What stands between the last output and the lock time. -/
  witnesses : List UInt8
  lockTime : List UInt8

namespace Sections

def bytes (s : Sections) : List UInt8 :=
  s.version ++ (s.marker ++ (s.inputs ++ (s.outputs ++ (s.witnesses ++ s.lockTime))))

/-- Everything but marker, flag and witnesses. -/
def bare (s : Sections) : List UInt8 := s.version ++ (s.inputs ++ (s.outputs ++ s.lockTime))

end Sections

/-- The transaction is read from `c` to `c'`, each part of it from a section of its own. -/
def ReadFrom (c : Cursor) (tx : Transaction) (s : Sections) (c' : Cursor) : Prop :=
  ∃ layout bare m₁ m₂ m₃ m₄ m₅,
    (int32 "tx.version").Takes c tx.version s.version m₁ ∧
    decodeLayout.Takes m₁ layout s.marker m₂ ∧
    (count "tx.input_count" Input.minSize >>= fun n => times n (Input.decode .count)).Takes
      m₂ bare s.inputs m₃ ∧
    (count "tx.output_count" Output.minSize >>= fun n => times n (Output.decode .count)).Takes
      m₃ tx.outputs s.outputs m₄ ∧
    (decodeWitnesses .count layout bare).Takes m₄ tx.inputs s.witnesses m₅ ∧
    (uint32 "tx.lock_time").Takes m₅ tx.lockTime s.lockTime c'

variable {c c' : Cursor} {tx : Transaction} {s : Sections}

theorem takes_decodeLayout_iff {layout : Layout} {marker : List UInt8} :
    decodeLayout.Takes c layout marker c' ↔ c.Spans marker c' ∧
      (layout = .witness ∧ marker = [0, 1] ∨ layout = .legacy ∧ marker = [] ∧ c.peek ≠ some 0) := by
  unfold Takes
  rw [returns_decodeLayout]
  constructor
  · intro h
    obtain ⟨⟨rfl, hw⟩ | ⟨rfl, hp, rfl⟩, hs⟩ := h
    · exact ⟨hs, .inl ⟨rfl, hs.unique hw⟩⟩
    · exact ⟨hs, .inr ⟨rfl, hs.unique (Cursor.spans_nil.mpr rfl), hp⟩⟩
  · intro h
    obtain ⟨hs, ⟨rfl, rfl⟩ | ⟨rfl, rfl, hp⟩⟩ := h
    · exact ⟨.inl ⟨rfl, hs⟩, hs⟩
    · exact ⟨.inr ⟨rfl, hp, Cursor.spans_nil.mp hs⟩, hs⟩

theorem exists_takes_decodeLayout {layout : Layout} (h : decodeLayout.Returns c layout c') :
    ∃ marker, decodeLayout.Takes c layout marker c' := by
  rcases returns_decodeLayout.mp h with ⟨-, hs⟩ | ⟨-, -, rfl⟩
  · exact ⟨_, h, hs⟩
  · exact ⟨_, h, Cursor.spans_nil.mpr rfl⟩

/-- Whatever is read is read section by section. -/
theorem exists_readFrom (h : decode.Returns c tx c') : ∃ s, ReadFrom c tx s c' := by
  unfold decode at h
  rw [decodeCounting_eq] at h
  obtain ⟨version, m₁, hversion, h⟩ := returns_bind.mp h
  obtain ⟨layout, m₂, hlayout, h⟩ := returns_bind.mp h
  unfold decodeBody at h
  obtain ⟨n, _, hn, h⟩ := returns_bind.mp h
  obtain ⟨bare, m₃, hbare, h⟩ := returns_bind.mp h
  obtain ⟨k, _, hk, h⟩ := returns_bind.mp h
  obtain ⟨outputs, m₄, houtputs, h⟩ := returns_bind.mp h
  obtain ⟨inputs, m₅, hinputs, h⟩ := returns_bind.mp h
  obtain ⟨lockTime, m₆, hlock, h⟩ := returns_bind.mp h
  obtain ⟨rfl, rfl⟩ := returns_pure.mp h
  obtain ⟨sv, hsv⟩ := (recognises_int32 _).exists_takes hversion
  obtain ⟨sm, hsm⟩ := exists_takes_decodeLayout hlayout
  obtain ⟨si, hsi⟩ := recognises_inputs.exists_takes (returns_bind.mpr ⟨n, _, hn, hbare⟩)
  obtain ⟨so, hso⟩ := recognises_outputs.exists_takes (returns_bind.mpr ⟨k, _, hk, houtputs⟩)
  obtain ⟨sw, hsw⟩ := (recognises_decodeWitnesses lawful_count layout bare).exists_takes hinputs
  obtain ⟨sl, hsl⟩ := (recognises_uint32 _).exists_takes hlock
  exact ⟨⟨sv, sm, si, so, sw, sl⟩, layout, bare, m₁, m₂, m₃, m₄, m₅, hsv, hsm, hsi, hso, hsw, hsl⟩

/-- Stacks are attached to the inputs without any other change. -/
theorem bytes_of_witnesses {layout : Layout} {bare inputs : List Input} {w : List UInt8}
    (h : witnesses layout bare inputs w) :
    VarInt.encodeLength inputs ++ inputs.flatMap Input.encode =
        VarInt.encodeLength bare ++ bare.flatMap Input.encode ∧ (layout = .legacy → w = []) := by
  cases layout with
  | legacy =>
    obtain ⟨rfl, rfl⟩ := h
    exact ⟨rfl, fun _ => rfl⟩
  | witness =>
    obtain ⟨⟨hmap, -, -⟩, -⟩ := h
    have hlen : inputs.length = bare.length := by simpa using congrArg List.length hmap
    refine ⟨?_, fun h => by cases h⟩
    rw [VarInt.encodeLength, hlen, flatMap_encode_of_withoutWitness hmap, VarInt.encodeLength]

theorem ReadFrom.spans (h : ReadFrom c tx s c') : c.Spans s.bytes c' := by
  obtain ⟨_, _, m₁, m₂, m₃, m₄, m₅, hversion, hmarker, hinputs, houtputs, hwitnesses, hlock⟩ := h
  exact Cursor.spans_append.mpr ⟨m₁, hversion.2, Cursor.spans_append.mpr ⟨m₂, hmarker.2,
    Cursor.spans_append.mpr ⟨m₃, hinputs.2, Cursor.spans_append.mpr ⟨m₄, houtputs.2,
    Cursor.spans_append.mpr ⟨m₅, hwitnesses.2, hlock.2⟩⟩⟩⟩⟩

/-- Outside the marker and the witnesses, the sections are what is written for the transaction. -/
theorem ReadFrom.parts (h : ReadFrom c tx s c') :
    s.version = LittleEndian.encodeInt32 tx.version ∧
      s.inputs = VarInt.encodeLength tx.inputs ++ tx.inputs.flatMap Input.encode ∧
      s.outputs = VarInt.encodeLength tx.outputs ++ tx.outputs.flatMap Output.encode ∧
      s.lockTime = LittleEndian.encodeUInt32 tx.lockTime := by
  obtain ⟨layout, bare, _, _, _, _, _, hversion, -, hinputs, houtputs, hwitnesses, hlock⟩ := h
  obtain ⟨-, -, hv⟩ := (recognises_int32 _).takes_iff.mp hversion
  obtain ⟨-, -, hi⟩ := recognises_inputs.takes_iff.mp hinputs
  obtain ⟨-, -, ho⟩ := recognises_outputs.takes_iff.mp houtputs
  obtain ⟨-, hw⟩ := (recognises_decodeWitnesses lawful_count layout bare).takes_iff.mp hwitnesses
  obtain ⟨-, -, hl⟩ := (recognises_uint32 _).takes_iff.mp hlock
  exact ⟨hv, hi.trans (bytes_of_witnesses hw).1.symm, ho, hl⟩

/-- Either there is a marker, or there is nothing that could be taken for one and no witnesses. -/
theorem ReadFrom.marker (h : ReadFrom c tx s c') :
    s.marker = [0, 1] ∨ s.marker = [] ∧ s.witnesses = [] ∧ s.inputs.head? ≠ some 0 := by
  have hinputs' := h.parts.2.1
  obtain ⟨layout, bare, _, _, _, _, _, -, hmarker, hinputs, -, hwitnesses, -⟩ := h
  obtain ⟨-, hw⟩ := (recognises_decodeWitnesses lawful_count layout bare).takes_iff.mp hwitnesses
  obtain ⟨hs, ⟨-, hm⟩ | ⟨rfl, hm, hp⟩⟩ := takes_decodeLayout_iff.mp hmarker
  · exact .inl hm
  · refine .inr ⟨hm, (bytes_of_witnesses hw).2 rfl, ?_⟩
    rw [hm, Cursor.spans_nil] at hs
    have hne : s.inputs ≠ [] := by simp [hinputs', VarInt.encodeLength_ne_nil]
    rwa [← hs, Cursor.peek, hinputs.2.1, List.head?_append_of_ne_nil _ hne] at hp

theorem ReadFrom.bare_eq (h : ReadFrom c tx s c') : s.bare = tx.encodeLegacy := by
  obtain ⟨hv, hi, ho, hl⟩ := h.parts
  rw [Sections.bare, encodeLegacy, encodeAs_eq, hv, hi, ho, hl]
  simp [encodeBody]

/-- Where the id of a transaction comes from: from all of its bytes if there is no marker behind the
version, and otherwise from all but the marker, the flag and the witnesses. -/
structure Sections.Identifies (s : Sections) (id : Hash256) : Prop where
  version : s.version.length = 4
  lockTime : s.lockTime.length = 4
  legacy : s.bytes[4]? ≠ some 0 → id.bytes = doubleSha256 s.bytes
  witness : s.bytes[4]? = some 0 → s.marker = [0, 1] ∧ id.bytes = doubleSha256 s.bare

theorem ReadFrom.identifies (h : ReadFrom c tx s c') : s.Identifies tx.txid := by
  obtain ⟨hv, hi, -, hl⟩ := h.parts
  have hversion : s.version.length = 4 := by
    rw [hv]
    exact LittleEndian.length_encodeInt32 tx.version
  have hlock : s.lockTime.length = 4 := by
    rw [hl]
    exact LittleEndian.length_encodeUInt32 tx.lockTime
  have hid : tx.txid.bytes = doubleSha256 s.bare := by
    rw [h.bare_eq]
    rfl
  have hfourth : s.bytes[4]? =
      (s.marker ++ (s.inputs ++ (s.outputs ++ (s.witnesses ++ s.lockTime)))).head? := by
    rw [Sections.bytes, List.getElem?_append_right (by omega), hversion, List.head?_eq_getElem?]
  rcases h.marker with hm | ⟨hm, hw, hp⟩
  · have hzero : s.bytes[4]? = some 0 := by rw [hfourth, hm]; rfl
    exact ⟨hversion, hlock, fun hne => absurd hzero hne, fun _ => ⟨hm, hid⟩⟩
  · have hne : s.inputs ≠ [] := by simp [hi, VarInt.encodeLength_ne_nil]
    have hnonzero : s.bytes[4]? ≠ some 0 := by
      rw [hfourth, hm, List.nil_append, List.head?_append_of_ne_nil _ hne]
      exact hp
    have hall : s.bytes = s.bare := by
      rw [Sections.bytes, Sections.bare, hm, hw, List.nil_append, List.nil_append]
    exact ⟨hversion, hlock, fun _ => hall ▸ hid, fun hz => absurd hz hnonzero⟩

end Transaction

theorem hasAuxpowFlag_iff_testBit (version : Int32) :
    hasAuxpowFlag version = true ↔ version.toUInt32.toNat.testBit 8 = true := by
  have hzero : version &&& auxpowFlag = 0 ↔ version.toUInt32.toNat &&& 2 ^ 8 = 0 := by
    rw [← Int32.toBitVec_inj, ← BitVec.toNat_inj]
    rfl
  rw [hasAuxpowFlag, bne_iff_ne, ne_eq, hzero, Nat.and_two_pow]
  cases version.toUInt32.toNat.testBit 8 <;> simp

/-- The bit of the version that announces a proof is the lowest bit of its second byte. -/
theorem hasAuxpowFlag_iff_byte (version : Int32) : hasAuxpowFlag version = true ↔
    ∃ x, (LittleEndian.encodeInt32 version)[1]? = some x ∧ x.toNat.testBit 0 = true := by
  have hbyte : (LittleEndian.encodeInt32 version)[1]? =
      some (UInt8.ofNat (version.toUInt32.toNat / 2 ^ 8)) := rfl
  rw [hasAuxpowFlag_iff_testBit, hbyte]
  simp only [Option.some.injEq, exists_eq_left', UInt8.toNat_ofNat', Nat.testBit_mod_two_pow,
    Nat.testBit_div_two_pow]
  simp

namespace Block

/-- The block is read from `data`: its header and its proof each from bytes of their own, and then a
count and as many transactions, up to the end. -/
def ReadFrom (data : List UInt8) (b : Block Transaction Header) (header proof : List UInt8)
    (txs : List Transaction.Sections) : Prop :=
  ∃ m m₁ m₂, Header.decode.Takes (.ofBytes data) b.header header m ∧
    (decodeAux .wire b.header).Takes m b.auxPow proof m₁ ∧
    (count "block.tx_count" Transaction.minSize).Returns m₁ b.transactions.length m₂ ∧
    Chain Transaction.ReadFrom m₂ b.transactions txs (.ofOffset data data.length)

variable {data header proof : List UInt8} {b : Block Transaction Header}
  {txs : List Transaction.Sections}

theorem recognises_decodeAux (header : Header) : (decodeAux .wire header).Recognises
    (auxGrammar (hasAuxpowFlag header.version)
      (.written Transaction.encode fun tx => tx.inputs ≠ [] ∧ tx.Fits)
      (.written Header.encode fun _ => True)) := by
  have hversion : Versioned.version header = header.version := rfl
  unfold decodeAux
  rw [hversion]
  cases hasAuxpowFlag header.version with
  | false =>
    refine (Recognises.only none).congr fun o bs => ?_
    cases o <;> simp [Grammar.only, auxGrammar]
  | true =>
    have hproof : (AuxProof.decodeCounting .count .wire).Recognises _ := AuxProof.recognises_decode
    refine hproof.map_some.congr fun o bs => ?_
    cases o <;> simp [auxGrammar]

theorem returns_end (h : (ofBytes data).result = .ok b) :
    decode.Returns (.ofBytes data) b (.ofOffset data data.length) := by
  obtain ⟨c, hret, hrest⟩ := ofBytes_eq_ok_iff_accepts.mp h
  obtain ⟨bs, hs, -⟩ := (recognises_decode _ b c).mp hret
  obtain ⟨hle, rfl⟩ := hs.eq_ofOffset (Nat.zero_le _)
  have hge : data.length ≤ 0 + bs.length := List.drop_eq_nil_iff.mp hrest
  rwa [Nat.le_antisymm hle hge] at hret

theorem exists_readFrom (h : (ofBytes data).result = .ok b) :
    ∃ header proof txs, b.ReadFrom data header proof txs := by
  obtain ⟨m, m₁, m₂, n, hh, ha, hn, htxs⟩ := returns_decodeWith.mp (returns_end h)
  obtain ⟨header, hheader⟩ := Header.recognises_decode.exists_takes hh
  obtain ⟨proof, hproof⟩ := (recognises_decodeAux b.header).exists_takes ha
  obtain ⟨rfl, txs, hchain⟩ := exists_chain_of_times Transaction.exists_readFrom htxs
  exact ⟨header, proof, txs, m, m₁, m₂, hheader, hproof, hn, hchain⟩

theorem ReadFrom.header_eq (h : b.ReadFrom data header proof txs) :
    header = data.take 80 ∧ header = b.header.encode := by
  obtain ⟨_, _, _, hheader, -⟩ := h
  obtain ⟨hs, -, rfl⟩ := Header.recognises_decode.takes_iff.mp hheader
  have hdata : data = b.header.encode ++ _ := hs.1
  refine ⟨?_, rfl⟩
  rw [hdata]
  exact (List.take_left' b.header.length_encode).symm

/-- The last part of a proof is the header of the parent block. -/
theorem ReadFrom.parentHeader (h : b.ReadFrom data header proof txs)
    {a : AuxProof Transaction Header} (ha : a ∈ b.auxPow) :
    ∃ front, proof = front ++ a.parentHeader.encode := by
  obtain ⟨_, _, _, -, hproof, -⟩ := h
  obtain ⟨-, haux⟩ := (recognises_decodeAux b.header).takes_iff.mp hproof
  rw [Option.mem_def.mp ha] at haux
  obtain ⟨-, hgrammar⟩ := haux
  obtain ⟨-, rfl⟩ := AuxProof.grammar_wire.mp hgrammar
  rw [AuxProof.encodeInto_eq, List.nil_append]
  exact ⟨_, rfl⟩

/-- The first part of a proof is the coinbase of the parent block. -/
theorem ReadFrom.coinbaseTx (h : b.ReadFrom data header proof txs)
    {a : AuxProof Transaction Header} (ha : a ∈ b.auxPow) :
    ∃ s c, Transaction.ReadFrom (.ofOffset data 80) a.coinbaseTx s c := by
  obtain ⟨m, m₁, _, hheader, ⟨hret, -⟩, -⟩ := h
  obtain ⟨hs, -, rfl⟩ := Header.recognises_decode.takes_iff.mp hheader
  obtain ⟨-, hm⟩ := hs.eq_ofOffset (Nat.zero_le _)
  rw [b.header.length_encode] at hm
  rw [Option.mem_def.mp ha, decodeAux] at hret
  split_ifs at hret
  · obtain ⟨a', ha', hsome⟩ := returns_map.mp hret
    cases hsome
    obtain ⟨_, _, _, _, htx, -⟩ := AuxProof.returns_decodeWith.mp ha'
    obtain ⟨s, hread⟩ := Transaction.exists_readFrom htx
    rw [hm] at hread
    exact ⟨s, _, hread⟩
  · cases (returns_pure.mp hret).1

theorem isAuxpow_iff_byte (h : (ofBytes data).result = .ok b)
    (hread : b.ReadFrom data header proof txs) :
    b.isAuxpow = true ↔ ∃ x, data[1]? = some x ∧ x.toNat.testBit 0 = true := by
  obtain ⟨⟨⟨hflag, -⟩, -⟩, -⟩ := ofBytes_eq_ok_iff_written.mp h
  obtain ⟨htake, hencode⟩ := hread.header_eq
  have hversion : 1 < (LittleEndian.encodeInt32 b.header.version).length := by
    rw [LittleEndian.length_encodeInt32]
    decide
  have hbyte : data[1]? = (LittleEndian.encodeInt32 b.header.version)[1]? := by
    calc data[1]? = (data.take 80)[1]? := (List.getElem?_take_of_lt (by decide)).symm
      _ = b.header.encode[1]? := by rw [← htake, hencode]
      _ = _ := by
        simp only [Header.encode, List.append_assoc]
        exact List.getElem?_append_left hversion
  rw [hbyte, ← hasAuxpowFlag_iff_byte, isAuxpow, hflag]

/-- The hash of a block, the hash of the parent block and the ids of all transactions are hashes of the
bytes from which they were read, and the byte that holds the flag tells whether there is a proof. -/
theorem identifiers_of_received (h : (ofBytes data).result = .ok b) :
    b.hash.bytes = doubleSha256 (data.take 80) ∧
    (b.isAuxpow = true ↔ ∃ x, data[1]? = some x ∧ x.toNat.testBit 0 = true) ∧
    (∃ header proof txs, b.ReadFrom data header proof txs) ∧
    ∀ header proof txs, b.ReadFrom data header proof txs →
      header = data.take 80 ∧
      (∀ a ∈ b.auxPow,
        (∃ front last, proof = front ++ last ∧ last.length = 80 ∧
          a.parentHeader.hash.bytes = doubleSha256 last) ∧
        ∃ s c, Transaction.ReadFrom (.ofOffset data 80) a.coinbaseTx s c ∧
          s.Identifies a.coinbaseTx.txid) ∧
      List.Forall₂ (fun tx s => s.Identifies tx.txid) b.transactions txs := by
  obtain ⟨header, proof, txs, hread⟩ := exists_readFrom h
  have hhash : b.hash.bytes = doubleSha256 (data.take 80) := by
    obtain ⟨htake, hencode⟩ := hread.header_eq
    rw [← htake, hencode]
    rfl
  refine ⟨hhash, isAuxpow_iff_byte h hread, ⟨header, proof, txs, hread⟩, ?_⟩
  intro header proof txs hread
  refine ⟨hread.header_eq.1, ?_, ?_⟩
  · intro a ha
    obtain ⟨front, hproof⟩ := hread.parentHeader ha
    obtain ⟨s, c, htx⟩ := hread.coinbaseTx ha
    exact ⟨⟨front, _, hproof, a.parentHeader.length_encode, rfl⟩, s, c, htx, htx.identifies⟩
  · obtain ⟨_, _, _, -, -, -, hchain⟩ := hread
    exact hchain.forall₂ fun htx => htx.identifies

theorem identifiers_of_sample : (ofBytes sample.encode).result = .ok sample ∧
    sample.hash.bytes = doubleSha256 (sample.encode.take 80) ∧ sample.isAuxpow = true ∧
    ∃ header proof txs, sample.ReadFrom sample.encode header proof txs ∧
      List.Forall₂ (fun tx s => s.Identifies tx.txid) sample.transactions txs := by
  have hf : sample.Fits := fits_of_length_encode (by decide +kernel)
  have h : (ofBytes sample.encode).result = .ok sample :=
    ofBytes_eq_ok_iff_written.mpr ⟨⟨by decide, hf⟩, rfl⟩
  obtain ⟨hhash, hflag, ⟨header, proof, txs, hread⟩, hids⟩ := identifiers_of_received h
  have hx : sample.encode[1]? = some 1 := by decide +kernel
  exact ⟨h, hhash, hflag.mpr ⟨1, hx, rfl⟩, header, proof, txs, hread, (hids _ _ _ hread).2.2⟩

end Block

end MergedMining
