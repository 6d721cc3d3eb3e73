import MergedMining.Proofs.InjectedFormats

/-! The comparison of a count with the bytes that remain decides how early a bad input is refused, and
never what is accepted: as long as no element is shorter than announced, a count that fails it could
not have been followed by its elements. -/
namespace MergedMining

open Decoder

variable {α β : Type}

namespace Decoder

/-- The same values are returned, with the cursor in the same place. -/
def Alike (d d' : Decoder α) : Prop := ∀ c a c', d.Returns c a c' ↔ d'.Returns c a c'

namespace Alike

variable {d d' : Decoder α} {f f' : α → Decoder β}

theorem refl (d : Decoder α) : d.Alike d := fun _ _ _ => Iff.rfl

theorem bind (hd : d.Alike d') (hf : ∀ a, (f a).Alike (f' a)) : (d >>= f).Alike (d' >>= f') := by
  intro c b c'
  simp only [returns_bind, hd c, hf _ _ b c']

theorem map (hd : d.Alike d') (g : α → β) : (g <$> d).Alike (g <$> d') :=
  hd.bind fun a => refl (pure (g a))

end Alike

theorem Recognises.alike {d d' : Decoder α} {E : Grammar α} (hd : d.Recognises E)
    (hd' : d'.Recognises E) : d.Alike d' := by
  intro c a c'
  rw [hd c a c', hd' c a c']

/-- Whenever a value is returned, the cursor has moved on by `least` bytes of its input or more. -/
def Advances (least : Nat) (d : Decoder α) : Prop :=
  ∀ c a c', d.Returns c a c' → ∃ bs, c.Spans bs c' ∧ least ≤ bs.length

theorem Recognises.advances {least : Nat} {d : Decoder α} {E : Grammar α} (hd : d.Recognises E)
    (hm : ∀ a bs, E a bs → least ≤ bs.length) : d.Advances least := by
  intro c a c' h
  obtain ⟨bs, hs, ha⟩ := (hd c a c').mp h
  exact ⟨bs, hs, hm a bs ha⟩

theorem Advances.times {least : Nat} {d : Decoder α} (hd : d.Advances least) (n : Nat) :
    (times n d).Advances (n * least) := by
  induction n with
  | zero =>
    intro c as c' h
    obtain ⟨-, rfl⟩ := returns_pure.mp h
    exact ⟨[], Cursor.spans_nil.mpr rfl, by simp⟩
  | succ n ih =>
    intro c as c' h
    obtain ⟨a, m, ha, hrest⟩ := returns_bind.mp h
    obtain ⟨as', m', has, hm'⟩ := returns_bind.mp hrest
    obtain ⟨-, rfl⟩ := returns_pure.mp hm'
    obtain ⟨s, hs, hsl⟩ := hd c a m ha
    obtain ⟨t, ht, htl⟩ := ih m as' c' has
    refine ⟨s ++ t, Cursor.spans_append.mpr ⟨m, hs, ht⟩, ?_⟩
    rw [List.length_append, Nat.succ_mul]
    omega

namespace CountReader.Lawful

variable {count count' : CountReader} {field : String} {least : Nat} {d : Decoder α}

/-- What a lawful count and its elements return, said without the reader of counts. -/
theorem returns_list_bind (hc : Lawful count) (hd : d.Advances (max least 1))
    {g : Nat → List α → Decoder β} {c c' : Cursor} {b : β} :
    (count field least >>= fun n => times n d >>= g n).Returns c b c' ↔
      ∃ (v : UInt64) (as : List α) (m m' : Cursor), c.Spans (VarInt.encode v) m ∧
        (times v.toNat d).Returns m as m' ∧ (g v.toNat as).Returns m' b c' := by
  constructor
  · intro h
    obtain ⟨n, m, hn, hrest⟩ := returns_bind.mp h
    obtain ⟨as, m', has, hb⟩ := returns_bind.mp hrest
    obtain ⟨v, rfl, hv⟩ := hc.spans hn
    exact ⟨v, as, m, m', hv, has, hb⟩
  · intro h
    obtain ⟨v, as, m, m', hv, has, hb⟩ := h
    -- The elements have been read, so there was room for them.
    have hroom : v.toNat * max least 1 ≤ m.remaining := by
      obtain ⟨bs, hs, hle⟩ := hd.times v.toNat m as m' has
      have := hs.remaining
      omega
    exact returns_bind.mpr ⟨v.toNat, m, hc.returns hv hroom, returns_bind.mpr ⟨as, m', has, hb⟩⟩

theorem alike_list_bind (hc : Lawful count) (hc' : Lawful count') (hd : d.Advances (max least 1))
    (g : Nat → List α → Decoder β) :
    (count field least >>= fun n => times n d >>= g n).Alike
      (count' field least >>= fun n => times n d >>= g n) := by
  intro c b c'
  rw [hc.returns_list_bind hd, hc'.returns_list_bind hd]

end CountReader.Lawful

end Decoder

section Codec

variable {T H : Type} {count count' : CountReader}

theorem AuxProof.alike_decodeCounting (hc : CountReader.Lawful count)
    (hc' : CountReader.Lawful count') (codec : Codec T H) :
    (decodeCounting count codec).Alike (decodeCounting count' codec) := by
  have hbranch := (Merkle.Branch.recognises_decodeCounting hc).alike
    (Merkle.Branch.recognises_decodeCounting hc')
  unfold decodeCounting
  apply (Alike.refl _).bind
  intro coinbaseTx
  apply (Alike.refl _).bind
  intro blockHash
  apply hbranch.bind
  intro coinbaseBranch
  apply hbranch.bind
  intro blockchainBranch
  exact .refl _

theorem Block.alike_decodeCounting [Versioned H] (hc : CountReader.Lawful count)
    (hc' : CountReader.Lawful count') {codec : Codec T H}
    (ht : codec.decodeTransaction.Advances (max codec.minTransactionSize 1)) :
    (decodeCounting count codec).Alike (decodeCounting count' codec) := by
  unfold decodeCounting
  apply (Alike.refl _).bind
  intro header
  by_cases hflag : hasAuxpowFlag (Versioned.version header) = true
  · simp only [hflag, if_true]
    apply ((AuxProof.alike_decodeCounting hc hc' codec).map some).bind
    intro auxPow
    exact hc.alike_list_bind hc' ht _
  · simp only [hflag]
    apply (Alike.refl _).bind
    intro auxPow
    exact hc.alike_list_bind hc' ht _

end Codec

/-- Every decoder accepts what it would accept if counts were taken at their word. In the wire format
this goes for the counts inside transactions too. A codec has to keep its promise about the size of a
transaction. -/
theorem alike_plainCount :
    Transaction.decode.Alike (Transaction.decodeCounting plainCount) ∧
    Merkle.Branch.decode.Alike (Merkle.Branch.decodeCounting plainCount) ∧
    AuxProof.decode.Alike (AuxProof.decodeCounting plainCount (.wireCounting plainCount)) ∧
    Block.decode.Alike (Block.decodeCounting plainCount (.wireCounting plainCount)) ∧
    ∀ {T H : Type} [Versioned H] (codec : Codec T H),
      (AuxProof.decodeWith codec).Alike (AuxProof.decodeCounting plainCount codec) ∧
      (codec.decodeTransaction.Advances (max codec.minTransactionSize 1) →
        (Block.decodeWith codec).Alike (Block.decodeCounting plainCount codec)) := by
  have hc := lawful_count
  have hp := lawful_plainCount
  have htx := Transaction.recognises_decodeCounting hc
  have htxp := Transaction.recognises_decodeCounting hp
  have hh := Header.recognises_decode
  refine ⟨htx.alike htxp, ?_, ?_, ?_, ?_⟩
  · exact (Merkle.Branch.recognises_decodeCounting hc).alike
      (Merkle.Branch.recognises_decodeCounting hp)
  · have haux : AuxProof.decode.Recognises _ := AuxProof.recognises_decodeCounting hc htx hh
    exact haux.alike (AuxProof.recognises_decodeCounting hp htxp hh)
  · exact Block.recognises_decode.alike (Block.recognises_decodeWire hp)
  · intro T H _ codec
    exact ⟨AuxProof.alike_decodeCounting hc hp codec, Block.alike_decodeCounting hc hp⟩

theorem Block.alike_plainCount_bytewise :
    Codec.bytewise.decodeTransaction.Advances (max Codec.bytewise.minTransactionSize 1) ∧
      (decodeWith Codec.bytewise).Alike (decodeCounting plainCount Codec.bytewise) := by
  have hadv := Codec.recognises_bytewise_transaction.advances Codec.minTransactionSize_le_bytewise
  obtain ⟨-, -, -, -, hcodec⟩ := alike_plainCount
  exact ⟨hadv, (hcodec Codec.bytewise).2 hadv⟩

end MergedMining
