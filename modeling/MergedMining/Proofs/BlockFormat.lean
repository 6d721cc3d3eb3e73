import MergedMining.Block.Basic
import MergedMining.Proofs.TransactionFormat

/-! The format of a block, for any format of the headers and transactions inside, and for the one that
a chain shares with its parent chains. -/
namespace MergedMining

open Decoder

variable {T H : Type} {count : CountReader}

theorem Header.recognises_decode : Header.decode.Recognises (.written encode fun _ => True) := by
  unfold Header.decode
  refine Recognises.congr ((recognises_int32 _).bind fun version => (recognises_hash _).bind
    fun prevBlockHash => (recognises_hash _).bind fun merkleRoot => (recognises_uint32 _).bind
    fun timestamp => (recognises_uint32 _).bind fun bits => (recognises_uint32 _).bind
    fun nonce => .only _) fun h bs => ?_
  simp only [Grammar.written_seq, Grammar.written, Grammar.only, true_and]
  constructor
  · intro h
    rcases h with ⟨version, _, rfl, prev, _, rfl, root, _, rfl, time, _, rfl, bits, _, rfl, nonce,
      _, rfl, rfl, rfl⟩
    simp [encode]
  · rintro rfl
    refine ⟨h.version, _, ?_, h.prevBlockHash, _, rfl, h.merkleRoot, _, rfl, h.timestamp, _, rfl,
      h.bits, _, rfl, h.nonce, [], rfl, rfl, rfl⟩
    simp [encode]

theorem Merkle.Branch.recognises_decodeCounting (hc : CountReader.Lawful count) :
    (Merkle.Branch.decodeCounting count).Recognises
      (.written encode fun m => m.hashes.length < UInt64.size) := by
  refine Recognises.congr (hc.list_bind (recognises_hash _) ?_ fun n hashes =>
    (recognises_int32 _).bind fun sideMask => .report_bind (.only _)) fun m bs => ?_
  · intro hash bs h
    rcases h with ⟨-, rfl⟩
    exact Nat.le_of_eq hash.length_bytes.symm
  · simp only [Grammar.counted_written, Grammar.written_seq, Grammar.written, Grammar.only, true_and]
    constructor
    · intro h
      rcases h with ⟨hashes, ⟨hn, -⟩, _, rfl, sideMask, _, rfl, rfl, rfl⟩
      exact ⟨hn, by simp [encode, encodeInto]⟩
    · intro h
      rcases h with ⟨hn, rfl⟩
      refine ⟨m.hashes, ⟨hn, fun _ _ => trivial⟩, _, ?_, m.sideMask, [], rfl, rfl, rfl⟩
      simp [encode, encodeInto]

theorem Merkle.Branch.recognises_decode :
    Merkle.Branch.decode.Recognises (.written encode fun m => m.hashes.length < UInt64.size) :=
  recognises_decodeCounting lawful_count

namespace AuxProof

/-- The parts of a proof one behind the other. -/
def grammar (TX : Grammar T) (HD : Grammar H) : Grammar (AuxProof T H) := fun a bs =>
  a.coinbaseBranch.hashes.length < UInt64.size ∧ a.blockchainBranch.hashes.length < UInt64.size ∧
    ∃ tx header, TX a.coinbaseTx tx ∧ HD a.parentHeader header ∧
      bs = tx ++ a.blockHash.bytes ++ a.coinbaseBranch.encode ++ a.blockchainBranch.encode ++ header

theorem recognises_decodeCounting {codec : Codec T H} {TX : Grammar T} {HD : Grammar H}
    (hc : CountReader.Lawful count) (ht : codec.decodeTransaction.Recognises TX)
    (hh : codec.decodeHeader.Recognises HD) :
    (decodeCounting count codec).Recognises (grammar TX HD) := by
  unfold decodeCounting
  refine Recognises.congr (ht.bind fun coinbaseTx => (recognises_hash _).bind fun blockHash =>
    (Merkle.Branch.recognises_decodeCounting hc).bind fun coinbaseBranch =>
    (Merkle.Branch.recognises_decodeCounting hc).bind fun blockchainBranch =>
    hh.bind fun parentHeader => .report_bind (.only _)) fun a bs => ?_
  constructor
  · intro h
    rcases h with ⟨coinbaseTx, tx, _, rfl, htx, blockHash, _, _, rfl, ⟨-, rfl⟩, cb, _, _, rfl,
      ⟨hcb, rfl⟩, bb, _, _, rfl, ⟨hbb, rfl⟩, parentHeader, header, _, rfl, hhd, rfl, rfl⟩
    exact ⟨hcb, hbb, tx, header, htx, hhd, by simp⟩
  · intro h
    rcases h with ⟨hcb, hbb, tx, header, htx, hhd, rfl⟩
    refine ⟨a.coinbaseTx, tx, _, ?_, htx, a.blockHash, _, _, rfl, ⟨trivial, rfl⟩, a.coinbaseBranch, _,
      _, rfl, ⟨hcb, rfl⟩, a.blockchainBranch, _, _, rfl, ⟨hbb, rfl⟩, a.parentHeader, header, [], rfl,
      hhd, rfl, rfl⟩
    simp

theorem recognises_decode :
    decode.Recognises (grammar (.written Transaction.encode fun tx => tx.inputs ≠ [] ∧ tx.Fits)
      (.written Header.encode fun _ => True)) :=
  recognises_decodeCounting lawful_count Transaction.recognises_decode Header.recognises_decode

end AuxProof

namespace Block

/-- A proof exactly where the version announces one. -/
def auxGrammar (flag : Bool) (TX : Grammar T) (HD : Grammar H) : Grammar (Option (AuxProof T H))
  | none, bs => flag = false ∧ bs = []
  | some a, bs => flag = true ∧ AuxProof.grammar TX HD a bs

/-- A header, a proof if the version announces one, and the transactions behind their count. -/
def grammar [Versioned H] (TX : Grammar T) (HD : Grammar H) : Grammar (Block T H) := fun b bs =>
  b.transactions.length < UInt64.size ∧ ∃ header aux txs, HD b.header header ∧
    auxGrammar (hasAuxpowFlag (Versioned.version b.header)) TX HD b.auxPow aux ∧
    Grammar.list TX b.transactions txs ∧
    bs = header ++ aux ++ VarInt.encodeLength b.transactions ++ txs

theorem recognises_decodeCounting [Versioned H] {codec : Codec T H} {TX : Grammar T}
    {HD : Grammar H} (hc : CountReader.Lawful count) (ht : codec.decodeTransaction.Recognises TX)
    (hh : codec.decodeHeader.Recognises HD)
    (hm : ∀ tx bs, TX tx bs → max codec.minTransactionSize 1 ≤ bs.length) :
    (decodeCounting count codec).Recognises (grammar TX HD) := by
  have ha (flag : Bool) {k : Option (AuxProof T H) → Decoder (Block T H)}
      {K : Option (AuxProof T H) → Grammar (Block T H)} (hk : ∀ o, (k o).Recognises (K o)) :
      (if flag = true then (some <$> AuxProof.decodeCounting count codec) >>= k
        else pure none >>= k).Recognises ((auxGrammar flag TX HD).seq K) := by
    cases flag with
    | false =>
      refine ((Recognises.only none).congr fun o bs => ?_).bind hk
      cases o <;> simp [Grammar.only, auxGrammar]
    | true =>
      refine ((AuxProof.recognises_decodeCounting hc ht hh).map_some.congr fun o bs => ?_).bind hk
      cases o <;> simp [auxGrammar]
  unfold decodeCounting
  refine Recognises.congr (hh.bind fun header => ha _ fun auxPow =>
    hc.list_bind ht hm fun n transactions => .report_bind (.only _)) fun b bs => ?_
  constructor
  · intro h
    rcases h with ⟨header, hd, _, rfl, hhd, auxPow, aux, _, rfl, haux, txs, _, _, rfl, ⟨hn, l,
      rfl, hl⟩, rfl, rfl⟩
    exact ⟨hn, hd, aux, l, hhd, haux, hl, by simp⟩
  · intro h
    rcases h with ⟨hn, hd, aux, l, hhd, haux, hl, rfl⟩
    refine ⟨b.header, hd, _, ?_, hhd, b.auxPow, aux, _, rfl, haux, b.transactions, _, [], rfl,
      ⟨hn, l, rfl, hl⟩, rfl, rfl⟩
    simp

/-- The transactions of a block, with the coinbase of its proof in front. -/
def allTransactions (b : Block T H) : List T :=
  (b.auxPow.map AuxProof.coinbaseTx).toList ++ b.transactions

theorem forall_mem_allTransactions {b : Block T H} {p : T → Prop} :
    (∀ tx ∈ b.allTransactions, p tx) ↔
      (∀ a ∈ b.auxPow, p a.coinbaseTx) ∧ ∀ tx ∈ b.transactions, p tx := by
  simp only [allTransactions, List.forall_mem_append]
  cases b.auxPow <;> simp

end Block

section Wire

theorem AuxProof.encodeInto_eq (out : List UInt8) (a : AuxProof Transaction Header) :
    a.encodeInto out = out ++ (a.coinbaseTx.encode ++ a.blockHash.bytes ++ a.coinbaseBranch.encode ++
      a.blockchainBranch.encode ++ a.parentHeader.encode) := by
  simp [encodeInto, Merkle.Branch.encodeInto_eq_append _ a.blockchainBranch,
    Merkle.Branch.encodeInto_eq_append _ a.coinbaseBranch]

theorem AuxProof.grammar_wire {valid : Transaction → Prop} {a : AuxProof Transaction Header}
    {bs : List UInt8} : grammar (.written Transaction.encode valid)
        (.written Header.encode fun _ => True) a bs ↔
      (valid a.coinbaseTx ∧ a.coinbaseBranch.hashes.length < UInt64.size ∧
        a.blockchainBranch.hashes.length < UInt64.size) ∧ bs = a.encodeInto [] := by
  rw [encodeInto_eq, List.nil_append]
  constructor
  · intro h
    rcases h with ⟨hcb, hbb, _, _, ⟨ht, rfl⟩, ⟨-, rfl⟩, rfl⟩
    exact ⟨⟨ht, hcb, hbb⟩, rfl⟩
  · intro h
    rcases h with ⟨⟨ht, hcb, hbb⟩, rfl⟩
    exact ⟨hcb, hbb, _, _, ⟨ht, rfl⟩, ⟨trivial, rfl⟩, rfl⟩

theorem Merkle.Branch.length_hashes_le (m : Merkle.Branch) : m.hashes.length ≤ m.encode.length := by
  have h : m.hashes.length ≤ (m.hashes.flatMap Hash256.bytes).length :=
    Grammar.length_le_length_flatMap (fun h => by simp [h.length_bytes]) m.hashes
  simp only [encode, encodeInto, List.length_append]
  omega

namespace Block

/-- The counts in a block, those inside its transactions apart, have encodings. -/
structure CountsFit (b : Block Transaction Header) : Prop where
  transactions : b.transactions.length < UInt64.size
  coinbaseBranch : ∀ a ∈ b.auxPow, a.coinbaseBranch.hashes.length < UInt64.size
  blockchainBranch : ∀ a ∈ b.auxPow, a.blockchainBranch.hashes.length < UInt64.size

/-- Every length in a block has an encoding, as the length of any list in memory has. -/
structure Fits (b : Block Transaction Header) : Prop extends CountsFit b where
  eachTransaction : ∀ tx ∈ b.allTransactions, tx.Fits

/-- What the format asks of a block: a proof exactly where the version announces one, and inputs in
every transaction. -/
structure WellFormed (b : Block Transaction Header) : Prop where
  auxPow : b.auxPow.isSome = hasAuxpowFlag b.header.version
  inputs : ∀ tx ∈ b.allTransactions, tx.inputs ≠ []

instance (b : Block Transaction Header) : Decidable b.WellFormed :=
  decidable_of_iff (b.auxPow.isSome = hasAuxpowFlag b.header.version ∧
    ∀ tx ∈ b.allTransactions, tx.inputs ≠ []) ⟨fun ⟨h, h'⟩ => ⟨h, h'⟩, fun ⟨h, h'⟩ => ⟨h, h'⟩⟩

/-- The proof of a block as bytes, none where there is none. -/
def encodeAux (b : Block Transaction Header) : List UInt8 :=
  b.auxPow.elim [] fun a => a.encodeInto []

theorem encode_eq (b : Block Transaction Header) : b.encode =
    b.header.encode ++ b.encodeAux ++ VarInt.encodeLength b.transactions ++
      b.transactions.flatMap Transaction.encode := by
  obtain ⟨header, auxPow, transactions⟩ := b
  cases auxPow with
  | none => simp [encode, encodeAux]
  | some a => simp [encode, encodeAux, AuxProof.encodeInto_eq]

theorem auxGrammar_wire {flag : Bool} {valid : Transaction → Prop} {b : Block Transaction Header}
    {bs : List UInt8} : auxGrammar flag (.written Transaction.encode valid)
        (.written Header.encode fun _ => True) b.auxPow bs ↔
      (b.auxPow.isSome = flag ∧ ∀ a ∈ b.auxPow, valid a.coinbaseTx ∧
        a.coinbaseBranch.hashes.length < UInt64.size ∧
        a.blockchainBranch.hashes.length < UInt64.size) ∧ bs = b.encodeAux := by
  cases ha : b.auxPow with
  | none => simp [auxGrammar, encodeAux, ha, eq_comm]
  | some a => simp [auxGrammar, AuxProof.grammar_wire, encodeAux, ha, eq_comm, and_assoc]

/-- The grammar of the wire format, whatever is asked of the transactions. -/
theorem grammar_wire {valid : Transaction → Prop} {b : Block Transaction Header}
    {bs : List UInt8} : grammar (.written Transaction.encode valid)
        (.written Header.encode fun _ => True) b bs ↔
      (b.auxPow.isSome = hasAuxpowFlag b.header.version ∧ (∀ tx ∈ b.allTransactions, valid tx) ∧
        b.CountsFit) ∧ bs = b.encode := by
  simp only [grammar, Grammar.list_written, auxGrammar_wire, forall_mem_allTransactions]
  constructor
  · intro h
    rcases h with ⟨hn, _, _, _, ⟨-, rfl⟩, ⟨⟨hflag, ha⟩, rfl⟩, ⟨ht, rfl⟩, rfl⟩
    refine ⟨⟨hflag, ⟨fun a h => (ha a h).1, ht⟩, hn, ?_, ?_⟩, (encode_eq b).symm⟩
    · intro a h
      exact (ha a h).2.1
    · intro a h
      exact (ha a h).2.2
  · intro h
    rcases h with ⟨⟨hflag, ⟨hcoinbase, ht⟩, hn, hcb, hbb⟩, rfl⟩
    refine ⟨hn, _, _, _, ⟨trivial, rfl⟩, ⟨⟨hflag, fun a h => ?_⟩, rfl⟩, ⟨ht, rfl⟩, encode_eq b⟩
    exact ⟨hcoinbase a h, hcb a h, hbb a h⟩

theorem recognises_decodeWire (hc : CountReader.Lawful count) :
    (decodeCounting count (Codec.wireCounting count)).Recognises
      (.written encode fun b => b.WellFormed ∧ b.Fits) := by
  refine Recognises.congr (recognises_decodeCounting hc (Transaction.recognises_decodeCounting hc)
    Header.recognises_decode ?_) fun b bs => ?_
  · intro tx bs h
    rcases h with ⟨-, rfl⟩
    exact tx.minSize_le
  · rw [grammar_wire]
    constructor
    · intro h
      rcases h with ⟨⟨hflag, ht, hcounts⟩, rfl⟩
      exact ⟨⟨⟨hflag, fun tx h => (ht tx h).1⟩, hcounts, fun tx h => (ht tx h).2⟩, rfl⟩
    · intro h
      rcases h with ⟨⟨hw, hf⟩, rfl⟩
      have ht := fun tx h => And.intro (hw.inputs tx h) (hf.eachTransaction tx h)
      exact ⟨⟨hw.auxPow, ht, hf.toCountsFit⟩, rfl⟩

theorem length_encodeInto_le {b : Block Transaction Header}
    {a : AuxProof Transaction Header} (ha : a ∈ b.auxPow) :
    (a.encodeInto []).length ≤ b.encode.length := by
  have he : b.encodeAux = a.encodeInto [] := by simp [encodeAux, Option.mem_def.mp ha]
  simp only [encode_eq, he, List.length_append]
  omega

theorem length_encode_le {b : Block Transaction Header} {tx : Transaction}
    (h : tx ∈ b.allTransactions) : tx.encode.length ≤ b.encode.length := by
  revert tx
  rw [forall_mem_allTransactions]
  constructor
  · intro a ha
    have := length_encodeInto_le ha
    simp only [AuxProof.encodeInto_eq, List.length_append] at this
    omega
  · intro tx htx
    have : tx.encode.length ≤ (b.transactions.flatMap Transaction.encode).length :=
      Grammar.length_le_length_flatMap_of_mem htx
    simp only [encode_eq, List.length_append]
    omega

/-- A block whose encoding can be addressed has no length that is out of range. -/
theorem fits_of_length_encode {b : Block Transaction Header}
    (h : b.encode.length < UInt64.size) : b.Fits where
  transactions := by
    have hone (tx : Transaction) : 1 ≤ tx.encode.length := Nat.le_trans (by decide) tx.minSize_le
    have := Grammar.length_le_length_flatMap hone b.transactions
    simp only [encode_eq, List.length_append] at h
    omega
  coinbaseBranch a ha := by
    have := a.coinbaseBranch.length_hashes_le
    have hle := length_encodeInto_le ha
    simp only [AuxProof.encodeInto_eq, List.length_append] at hle
    omega
  blockchainBranch a ha := by
    have := a.blockchainBranch.length_hashes_le
    have hle := length_encodeInto_le ha
    simp only [AuxProof.encodeInto_eq, List.length_append] at hle
    omega
  eachTransaction tx htx :=
    Transaction.fits_of_length_encode (Nat.lt_of_le_of_lt (length_encode_le htx) h)

theorem recognises_decode :
    decode.Recognises (.written encode fun b => b.WellFormed ∧ b.Fits) :=
  recognises_decodeWire lawful_count

theorem ofBytes_eq_ok_iff_accepts {data : List UInt8} {b : Block Transaction Header} :
    (ofBytes data).result = .ok b ↔ decode.Accepts data b := by
  unfold ofBytes Decoder.Accepts Decoder.Returns
  rcases decode (.ofBytes data) with ⟨e | block, c, events, accesses⟩
  · simp
  · by_cases hc : c.rest = []
    · simp only [Cursor.isEmpty, hc, List.isEmpty_nil, if_true, Except.ok.injEq]
      constructor
      · rintro rfl
        exact ⟨c, ⟨rfl, rfl⟩, hc⟩
      · intro h
        rcases h with ⟨_, ⟨rfl, -⟩, -⟩
        rfl
    · simp [Cursor.isEmpty, hc]

theorem ofBytes_eq_ok_iff_written {data : List UInt8} {b : Block Transaction Header} :
    (ofBytes data).result = .ok b ↔ (b.WellFormed ∧ b.Fits) ∧ data = b.encode := by
  rw [ofBytes_eq_ok_iff_accepts]
  exact recognises_decode.accepts

/-- A whole input is read as a block if and only if the block is well-formed and the input is its
encoding. -/
theorem ofBytes_eq_ok_iff {data : List UInt8} (hdata : data.length < 2 ^ 63)
    (b : Block Transaction Header) :
    (ofBytes data).result = .ok b ↔ b.WellFormed ∧ b.encode = data := by
  rw [ofBytes_eq_ok_iff_written]
  constructor
  · intro h
    rcases h with ⟨⟨hw, -⟩, he⟩
    exact ⟨hw, he.symm⟩
  · intro h
    rcases h with ⟨hw, rfl⟩
    have hsize : (2 : Nat) ^ 63 < UInt64.size := by decide
    exact ⟨⟨hw, fits_of_length_encode (Nat.lt_trans hdata hsize)⟩, rfl⟩

/-- A block that is mined with a parent block, and holds one transaction. -/
def sample : Block Transaction Header where
  header :=
    { version := 0x0100, prevBlockHash := .zero, merkleRoot := .zero, timestamp := 0, bits := 0,
      nonce := 0 }
  auxPow := some
    { coinbaseTx := Transaction.sample
      blockHash := .zero
      coinbaseBranch := ⟨[.zero], 1⟩
      blockchainBranch := ⟨[], 0⟩
      parentHeader :=
        { version := 1, prevBlockHash := .zero, merkleRoot := .zero, timestamp := 0, bits := 0,
          nonce := 0 } }
  transactions := [Transaction.sample]

theorem ofBytes_encode_sample : (ofBytes sample.encode).result = .ok sample := by
  have hdata : sample.encode.length < 2 ^ 63 := by decide +kernel
  exact (ofBytes_eq_ok_iff hdata sample).mpr ⟨by decide, rfl⟩

end Block

end Wire

end MergedMining
