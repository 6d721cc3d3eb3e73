import MergedMining.Proofs.BlockFormat

/-! A block format is put together from any format of headers and any format of transactions, whatever
these are. Nothing is asked of their decoders but that they recognise them. -/
namespace MergedMining

open Decoder

namespace Decoder

variable {α : Type}

/-- At every offset of every input the decoder returns exactly the values that the next bytes spell, and
stops behind them. -/
structure Reads (d : Decoder α) (E : Grammar α) : Prop where
  returns_iff : ∀ {data : List UInt8} {pos n : Nat} {a : α}, pos + n ≤ data.length →
    (d.Returns (.ofOffset data pos) a (.ofOffset data (pos + n)) ↔ E a ((data.drop pos).take n))
  /-- The cursor moves neither back nor past the end. -/
  forward : ∀ {data : List UInt8} {pos : Nat} {a : α} {c : Cursor}, pos ≤ data.length →
    d.Returns (.ofOffset data pos) a c → ∃ n, pos + n ≤ data.length ∧ c = .ofOffset data (pos + n)

/-- Every cursor stands in some input. -/
theorem exists_ofOffset_eq (c : Cursor) :
    ∃ data, c.position ≤ data.length ∧ c = .ofOffset data c.position := by
  refine ⟨List.replicate c.position 0 ++ c.rest, by simp, ?_⟩
  apply Cursor.ext
  · rfl
  · simp [Cursor.ofOffset]

theorem reads_iff_recognises {d : Decoder α} {E : Grammar α} : d.Reads E ↔ d.Recognises E := by
  constructor
  · intro h c a c'
    obtain ⟨data, hpos, hc⟩ := exists_ofOffset_eq c
    rw [hc]
    constructor
    · intro hret
      obtain ⟨n, hn, rfl⟩ := h.forward hpos hret
      exact ⟨_, (Cursor.spans_ofOffset hn).mpr rfl, (h.returns_iff hn).mp hret⟩
    · intro hspell
      obtain ⟨bs, hs, hE⟩ := hspell
      obtain ⟨hn, rfl⟩ := hs.eq_ofOffset hpos
      rwa [h.returns_iff hn, (Cursor.spans_ofOffset hn).mp hs]
  · intro h
    constructor
    · intro data pos n a hn
      rw [h]
      simp only [Cursor.spans_ofOffset hn, exists_eq_left']
    · intro data pos a c hpos hret
      obtain ⟨bs, hs, -⟩ := (h _ _ _).mp hret
      exact ⟨bs.length, hs.eq_ofOffset hpos⟩

end Decoder

theorem Grammar.list_iff_forall₂ {α : Type} {E : Grammar α} {as : List α} {bs : List UInt8} :
    Grammar.list E as bs ↔ ∃ parts, List.Forall₂ E as parts ∧ bs = parts.flatten := by
  induction as generalizing bs with
  | nil => simp [Grammar.list]
  | cons a as ih =>
    simp only [Grammar.list, ih]
    constructor
    · intro h
      obtain ⟨s, _, rfl, hs, parts, hparts, rfl⟩ := h
      exact ⟨s :: parts, .cons hs hparts, rfl⟩
    · intro h
      obtain ⟨_, hparts, rfl⟩ := h
      cases hparts with
      | cons hs hparts => exact ⟨_, _, rfl, hs, _, hparts, rfl⟩

namespace Block

variable {T H : Type}

theorem auxGrammar_iff {version : Int32} {TX : Grammar T} {HD : Grammar H}
    {o : Option (AuxProof T H)} {bs : List UInt8}
    (hcounts : ∀ a ∈ o, a.coinbaseBranch.hashes.length < UInt64.size ∧
      a.blockchainBranch.hashes.length < UInt64.size) :
    auxGrammar (hasAuxpowFlag version) TX HD o bs ↔
      (version &&& 0x0100 = 0 ∧ o = none ∧ bs = []) ∨
      (version &&& 0x0100 ≠ 0 ∧ ∃ a tx header, o = some a ∧ TX a.coinbaseTx tx ∧
        HD a.parentHeader header ∧ bs = tx ++ a.blockHash.bytes ++ a.coinbaseBranch.encode ++
          a.blockchainBranch.encode ++ header) := by
  cases o with
  | none => simp [auxGrammar, hasAuxpowFlag, auxpowFlag]
  | some a =>
    obtain ⟨hcb, hbb⟩ := hcounts a rfl
    simp [auxGrammar, hasAuxpowFlag, auxpowFlag, AuxProof.grammar, hcb, hbb]

/-- Wherever a cursor stands, a block is read from the next bytes if and only if they are a header, a
proof if the version announces one, the number of transactions and that many transactions, each in its
own format. -/
theorem decodeWith_ofOffset_eq_ok_iff [Versioned H] {codec : Codec T H} {HD : Grammar H}
    {TX : Grammar T} (hh : codec.decodeHeader.Reads HD) (ht : codec.decodeTransaction.Reads TX)
    (hm : ∀ tx bs, TX tx bs → max codec.minTransactionSize 1 ≤ bs.length)
    {data : List UInt8} {pos n : Nat} (hn : pos + n ≤ data.length) {b : Block T H}
    (htxs : b.transactions.length < 2 ^ 63)
    (hbranches : ∀ a ∈ b.auxPow, a.coinbaseBranch.hashes.length < 2 ^ 63 ∧
      a.blockchainBranch.hashes.length < 2 ^ 63) :
    (decodeWith codec (.ofOffset data pos)).result = .ok b ∧
        (decodeWith codec (.ofOffset data pos)).cursor = .ofOffset data (pos + n) ↔
      ∃ header aux txs, (data.drop pos).take n =
          header ++ aux ++ VarInt.encode (.ofNat b.transactions.length) ++ txs.flatten ∧
        HD b.header header ∧ List.Forall₂ TX b.transactions txs ∧
        ((Versioned.version b.header &&& 0x0100 = 0 ∧ b.auxPow = none ∧ aux = []) ∨
          (Versioned.version b.header &&& 0x0100 ≠ 0 ∧ ∃ a tx parent, b.auxPow = some a ∧
            TX a.coinbaseTx tx ∧ HD a.parentHeader parent ∧
            aux = tx ++ a.blockHash.bytes ++ a.coinbaseBranch.encode ++
              a.blockchainBranch.encode ++ parent)) := by
  have hsize : (2 : Nat) ^ 63 < UInt64.size := by decide
  have hcounts : ∀ a ∈ b.auxPow, a.coinbaseBranch.hashes.length < UInt64.size ∧
      a.blockchainBranch.hashes.length < UInt64.size := by
    intro a ha
    obtain ⟨hcb, hbb⟩ := hbranches a ha
    exact ⟨Nat.lt_trans hcb hsize, Nat.lt_trans hbb hsize⟩
  have hr : (decodeWith codec).Recognises (grammar TX HD) :=
    recognises_decodeCounting lawful_count (reads_iff_recognises.mp ht)
      (reads_iff_recognises.mp hh) hm
  change (decodeWith codec).Returns _ b _ ↔ _
  rw [(reads_iff_recognises.mpr hr).returns_iff hn]
  simp only [grammar, auxGrammar_iff hcounts, Grammar.list_iff_forall₂]
  constructor
  · intro h
    obtain ⟨-, header, aux, _, hhd, haux, ⟨txs, htx, rfl⟩, hdata⟩ := h
    exact ⟨header, aux, txs, hdata, hhd, htx, haux⟩
  · intro h
    obtain ⟨header, aux, txs, hdata, hhd, htx, haux⟩ := h
    exact ⟨Nat.lt_trans htxs hsize, header, aux, _, hhd, haux, ⟨txs, htx, rfl⟩, hdata⟩

end Block

namespace Codec

instance : Versioned Int32 := ⟨id⟩

/-- Headers that are nothing but a version, and transactions of one byte, of which one is refused. -/
def bytewise : Codec UInt8 Int32 where
  decodeHeader := .int32 "header"
  decodeTransaction := do
    let b ← .uint8 "tx"
    if b = 0xee then .fail (.refused "poisoned transaction") else return b

theorem recognises_bytewise_header :
    bytewise.decodeHeader.Recognises (.written LittleEndian.encodeInt32 fun _ => True) :=
  recognises_int32 _

theorem recognises_bytewise_transaction :
    bytewise.decodeTransaction.Recognises (.written (fun b => [b]) fun b => b ≠ 0xee) := by
  apply ((recognises_uint8 _).bind fun b => .guarded (fun _ _ _ => not_returns_fail) b).congr
  intro b bs
  rw [Grammar.written_seq]
  constructor
  · intro h
    obtain ⟨_, -, _, rfl, hb, rfl, rfl⟩ := h
    exact ⟨hb, rfl⟩
  · intro h
    obtain ⟨hb, rfl⟩ := h
    exact ⟨b, trivial, [], rfl, hb, rfl, rfl⟩

theorem minTransactionSize_le_bytewise (tx : UInt8) (bs : List UInt8)
    (h : Grammar.written (fun b => [b]) (fun b => b ≠ 0xee) tx bs) :
    max bytewise.minTransactionSize 1 ≤ bs.length := by
  obtain ⟨-, rfl⟩ := h
  exact Nat.le_refl 1

end Codec

namespace Block

/-- A block of the bytewise format with a proof. -/
def bytewise : Block UInt8 Int32 where
  header := 0x0100
  auxPow := some
    { coinbaseTx := 7
      blockHash := .zero
      coinbaseBranch := ⟨[], 0⟩
      blockchainBranch := ⟨[.zero], 2⟩
      parentHeader := 0x20 }
  transactions := [10, 11, 12]

theorem decodeWith_bytewise_between_bytes :
    let proof := 7 :: List.replicate 32 0 ++ [0, 0, 0, 0, 0] ++
      (1 :: List.replicate 32 0 ++ [2, 0, 0, 0]) ++ [0x20, 0, 0, 0]
    let bytes := [0, 1, 0, 0] ++ proof ++ [3, 10, 11, 12]
    let data := 0xff :: bytes ++ [0xff]
    Codec.bytewise.decodeHeader.Reads (.written LittleEndian.encodeInt32 fun _ => True) ∧
      Codec.bytewise.decodeTransaction.Reads (.written (fun b => [b]) fun b => b ≠ 0xee) ∧
      (decodeWith Codec.bytewise (.ofOffset data 1)).result = .ok bytewise ∧
      (decodeWith Codec.bytewise (.ofOffset data 1)).cursor = .ofOffset data (1 + bytes.length) := by
  intro proof bytes data
  have hh := reads_iff_recognises.mpr Codec.recognises_bytewise_header
  have ht := reads_iff_recognises.mpr Codec.recognises_bytewise_transaction
  have hn : 1 + bytes.length ≤ data.length := by decide
  have hbranches : ∀ a ∈ bytewise.auxPow, a.coinbaseBranch.hashes.length < 2 ^ 63 ∧
      a.blockchainBranch.hashes.length < 2 ^ 63 := by
    rintro _ ⟨⟩
    decide
  have hread := decodeWith_ofOffset_eq_ok_iff hh ht Codec.minTransactionSize_le_bytewise hn
    (b := bytewise) (by decide) hbranches
  refine ⟨hh, ht, hread.mpr ⟨[0, 1, 0, 0], proof, [[10], [11], [12]], by decide, ?_, ?_, .inr ?_⟩⟩
  · exact ⟨trivial, rfl⟩
  · simp [bytewise, Grammar.written]
  · refine ⟨by decide, _, [7], [0x20, 0, 0, 0], rfl, ?_, ?_, by decide⟩
    · exact ⟨by decide, rfl⟩
    · exact ⟨trivial, rfl⟩

end Block

end MergedMining
