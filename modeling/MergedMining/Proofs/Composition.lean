import MergedMining.Block.Basic
import MergedMining.Proofs.TransactionFormat

/-! Properties that a decoder inherits from the decoders it is put together from. The decoders of the
wire format have such a property as soon as the few reads have it that all of them are made of. -/
namespace MergedMining

open Decoder

namespace Decoder

variable {K : {α : Type} → Decoder α → Prop} {α β : Type}

/-- A read of fixed width has the property, and so has one decoder after another that both have it. -/
structure Inherited (K : {α : Type} → Decoder α → Prop) : Prop where
  pure {α : Type} (a : α) : K (pure a : Decoder α)
  bind {α β : Type} {d : Decoder α} {f : α → Decoder β} (hd : K d) (hf : ∀ a, K (f a)) : K (d >>= f)
  exactly (n : Nat) (field : String) : K (exactly n field)

namespace Inherited

variable {d : Decoder α}

theorem map (hK : Inherited K) (hd : K d) (g : α → β) : K (g <$> d) :=
  hK.bind hd fun a => hK.pure (g a)

theorem times (hK : Inherited K) (hd : K d) (n : Nat) : K (times n d) := by
  induction n with
  | zero => exact hK.pure []
  | succ n ih =>
    apply hK.bind hd
    intro a
    apply hK.bind ih
    intro as
    exact hK.pure (a :: as)

variable (hK : Inherited K)
include hK

theorem bytes (n : Nat) (field : String) : K (bytes n field) :=
  hK.bind (hK.exactly n field) fun bs => hK.pure bs.val

theorem number (width : Nat) (field : String) : K (number width field) :=
  hK.bind (hK.bytes width field) fun bs => hK.pure (LittleEndian.decode bs)

theorem uint8 (field : String) : K (uint8 field) :=
  hK.bind (hK.number 1 field) fun n => hK.pure (UInt8.ofNat n)

theorem uint16 (field : String) : K (uint16 field) :=
  hK.bind (hK.number 2 field) fun n => hK.pure (UInt16.ofNat n)

theorem uint32 (field : String) : K (uint32 field) :=
  hK.bind (hK.number 4 field) fun n => hK.pure (UInt32.ofNat n)

theorem uint64 (field : String) : K (uint64 field) :=
  hK.bind (hK.number 8 field) fun n => hK.pure (UInt64.ofNat n)

theorem int32 (field : String) : K (int32 field) :=
  hK.bind (hK.uint32 field) fun n => hK.pure n.toInt32

theorem hash (field : String) : K (hash field) :=
  hK.bind (hK.exactly 32 field) fun bs => hK.pure (Hash256.mk bs.val bs.property)

theorem header : K Header.decode := by
  unfold Header.decode
  exact hK.bind (hK.int32 _) fun version => hK.bind (hK.hash _) fun prev =>
    hK.bind (hK.hash _) fun root => hK.bind (hK.uint32 _) fun time =>
    hK.bind (hK.uint32 _) fun bits => hK.bind (hK.uint32 _) fun nonce => hK.pure _

end Inherited

/-- A count has the property too, and so has the refusal of needless witnesses. -/
structure WireInherited (K : {α : Type} → Decoder α → Prop) : Prop extends Inherited K where
  count (field : String) (least : Nat) : K (count field least)
  superfluous {α : Type} : K (fail (.format .superfluousWitness) : Decoder α)

namespace WireInherited

variable (hK : WireInherited K)
include hK

section Transaction

open Transaction

theorem script (field : String) : K (decodeScript .count field) :=
  hK.bind (hK.count field 1) fun n => hK.bytes n field

theorem stack : K (decodeStack .count) :=
  hK.bind (hK.count _ _) fun n => hK.times (hK.script _) n

theorem input : K (Input.decode .count) := by
  unfold Input.decode
  exact hK.bind (hK.hash _) fun txid => hK.bind (hK.uint32 _) fun vout =>
    hK.bind (hK.script _) fun scriptSig => hK.bind (hK.uint32 _) fun sequence => hK.pure _

theorem output : K (Output.decode .count) := by
  unfold Output.decode
  exact hK.bind (hK.uint64 _) fun value => hK.bind (hK.script _) fun script => hK.pure _

theorem witnesses (layout : Layout) (bare : List Input) : K (decodeWitnesses .count layout bare) := by
  cases layout with
  | legacy => exact hK.pure bare
  | witness =>
    apply hK.bind (hK.times hK.stack bare.length)
    intro ws
    split_ifs
    · exact hK.superfluous
    · exact hK.pure _

theorem body (version : Int32) (layout : Layout) : K (decodeBody .count version layout) := by
  unfold decodeBody
  exact hK.bind (hK.count _ _) fun n => hK.bind (hK.times hK.input n) fun bare =>
    hK.bind (hK.count _ _) fun m => hK.bind (hK.times hK.output m) fun outputs =>
    hK.bind (hK.witnesses layout bare) fun inputs => hK.bind (hK.uint32 _) fun time => hK.pure _

/-- The layout is asked for together with what is read in it: to tell the layouts apart, the decoder
looks at a byte that it may not take. -/
theorem transaction
    (hlayout : ∀ version, K (decodeLayout >>= fun layout => decodeBody .count version layout)) :
    K Transaction.decode := by
  unfold Transaction.decode
  rw [decodeCounting_eq]
  exact hK.bind (hK.int32 _) hlayout

end Transaction

variable (hreport : ∀ event, K (report event))
include hreport

theorem branch : K Merkle.Branch.decode := by
  unfold Merkle.Branch.decode Merkle.Branch.decodeCounting
  exact hK.bind (hK.count _ _) fun n => hK.bind (hK.times (hK.hash _) n) fun hashes =>
    hK.bind (hK.int32 _) fun sideMask => hK.bind (hreport _) fun _ => hK.pure _

variable {T H : Type} {codec : Codec T H} (ht : K codec.decodeTransaction) (hh : K codec.decodeHeader)
include ht hh

theorem proof : K (AuxProof.decodeWith codec) := by
  unfold AuxProof.decodeWith AuxProof.decodeCounting
  have hbranch : K Merkle.Branch.decode := hK.branch hreport
  exact hK.bind ht fun tx => hK.bind (hK.hash _) fun blockHash => hK.bind hbranch fun cb =>
    hK.bind hbranch fun bb => hK.bind hh fun header => hK.bind (hreport _) fun _ => hK.pure _

/-- The decoder of a block has the property if those that are handed to it have it. -/
theorem block [Versioned H] : K (Block.decodeWith codec) := by
  unfold Block.decodeWith Block.decodeCounting
  apply hK.bind hh
  intro header
  have htail (auxPow : Option (AuxProof T H)) : K (do
      let n ← Decoder.count "block.tx_count" codec.minTransactionSize
      let transactions ← Decoder.times n codec.decodeTransaction
      Decoder.report (.blockDecoded (Versioned.version header) auxPow.isSome n)
      return { header, auxPow, transactions } : Decoder (Block T H)) :=
    hK.bind (hK.count _ _) fun n => hK.bind (hK.times ht n) fun txs =>
      hK.bind (hreport _) fun _ => hK.pure _
  by_cases hflag : hasAuxpowFlag (Versioned.version header) = true
  · simp only [hflag, if_true]
    exact hK.bind (hK.map (hK.proof hreport ht hh) some) htail
  · simp only [hflag]
    exact hK.bind (hK.pure none) htail

end WireInherited

end Decoder

end MergedMining
