import MergedMining.Proofs.BlockFormat
import MergedMining.Proofs.Steadiness

/-! The verdict on a header, a transaction, a branch, a proof or a block is settled by the bytes that
have been read for it. -/
namespace MergedMining

open Decoder

theorem Header.steady_decode : Header.decode.Steady := inherited_steady.header

namespace Transaction

/-- With a byte in front of it, the decoder sees the same marker or none on any longer input. -/
theorem carries_decodeLayout {c : Cursor} (hc : c.rest ≠ []) (t : List UInt8) :
    (decodeLayout c).Carries t (decodeLayout (c.append t)) := by
  obtain ⟨b, bs, hb⟩ := List.exists_cons_of_ne_nil hc
  have hpeek : (c.append t).peek = c.peek := by simp [Cursor.peek, Cursor.append, hb]
  apply carries_here_bind
  rw [hpeek]
  by_cases hp : c.peek = some 0
  · rw [if_pos hp]
    apply carries_bind (inherited_steady.uint8 _ c t)
    intro _ m _
    apply carries_bind (inherited_steady.uint8 _ m t)
    intro flag m' _
    by_cases hflag : flag = 1
    · simp only [hflag, if_true]
      exact carries_pure _
    · simp only [hflag]
      exact Steady.fail _ m' t
  · rw [if_neg hp]
    exact carries_pure _

/-- At the end of the input the marker is not looked for, which is no matter where the legacy layout
cannot do without another byte. -/
theorem steady_decodeLayout_bind {β : Type} {f : Layout → Decoder β} (hf : ∀ l, (f l).Steady)
    (field : String) (hend : ∀ position, (f .legacy ⟨position, []⟩).result =
      .error (.truncatedInput field 1 0)) : (decodeLayout >>= f).Steady := by
  intro c t
  by_cases hc : c.rest = []
  · obtain ⟨position, rest⟩ := c
    obtain rfl : rest = [] := hc
    constructor
    · exact (hf .legacy _ t).shortfall
    · intro hs
      have hlt : 0 + t.length < 1 := hs _ (hend position)
      obtain rfl := List.length_eq_zero_iff.mp (by omega : t.length = 0)
      rw [Run.append_nil, Cursor.append_nil]
  · exact carries_bind (carries_decodeLayout hc t) fun l m _ => hf l m t

theorem steady_decode : decode.Steady := by
  apply wireInherited_steady.transaction
  intro version
  apply steady_decodeLayout_bind (wireInherited_steady.body version) "tx.input_count"
  intro position
  rfl

end Transaction

theorem Merkle.Branch.steady_decode : Merkle.Branch.decode.Steady :=
  wireInherited_steady.branch .report

theorem AuxProof.steady_decode : AuxProof.decode.Steady :=
  wireInherited_steady.proof .report Transaction.steady_decode Header.steady_decode

theorem Block.steady_decode : Block.decode.Steady :=
  wireInherited_steady.block .report Transaction.steady_decode Header.steady_decode

namespace Decoder

variable {α : Type}

/-- What a decoder answers is settled by the bytes that it has read. -/
structure Local (d : Decoder α) : Prop where
  /-- Whatever comes behind a value, the value is read. -/
  accepted : ∀ {data : List UInt8} {pos n : Nat} {a : α}, pos ≤ data.length →
    (d (.ofOffset data pos)).result = .ok a → (d (.ofOffset data pos)).cursor.position = pos + n →
    ∀ t, d.Returns (.ofOffset (data.take (pos + n) ++ t) pos) a
      (.ofOffset (data.take (pos + n) ++ t) (pos + n))
  /-- Whatever comes behind a breach of the format, it is found again. -/
  refused : ∀ {data : List UInt8} {pos : Nat} {error : FormatError}, pos ≤ data.length →
    (d (.ofOffset data pos)).result = .error (.format error) →
    ∀ t, (d (.ofOffset (data ++ t) pos)).result = .error (.format error) ∧
      (d (.ofOffset (data ++ t) pos)).cursor.position = (d (.ofOffset data pos)).cursor.position
  /-- Wherever a value is cut off, the input is found truncated. -/
  cut : ∀ {data : List UInt8} {pos n : Nat} {a : α}, pos ≤ data.length →
    (d (.ofOffset data pos)).result = .ok a → (d (.ofOffset data pos)).cursor.position = pos + n →
    ∀ k < n, ∃ field needed remaining,
      (d (.ofOffset (data.take (pos + k)) pos)).result =
        .error (.truncatedInput field needed remaining)
  prefixFree : ∀ {s t : List UInt8} {a b : α}, d.Accepts s a → d.Accepts (s ++ t) b → t = []

theorem Recognises.take_drop {d : Decoder α} {E : Grammar α} (hr : d.Recognises E)
    {data : List UInt8} {pos n : Nat} {a : α} (hpos : pos ≤ data.length)
    (ha : (d (.ofOffset data pos)).result = .ok a)
    (hn : (d (.ofOffset data pos)).cursor.position = pos + n) :
    pos + n ≤ data.length ∧ E a ((data.drop pos).take n) := by
  obtain ⟨bs, hs, hE⟩ := (hr _ a _).mp ⟨ha, rfl⟩
  obtain ⟨hle, hc⟩ := hs.eq_ofOffset hpos
  have hbs : pos + n = pos + bs.length := hn.symm.trans (congrArg Cursor.position hc)
  obtain rfl := Nat.add_left_cancel hbs
  rw [hc, Cursor.spans_ofOffset hle] at hs
  rw [hs]
  exact ⟨hle, hE⟩

theorem append_ofOffset {data : List UInt8} {pos : Nat} (hpos : pos ≤ data.length)
    (t : List UInt8) : (Cursor.ofOffset data pos).append t = .ofOffset (data ++ t) pos := by
  simp [Cursor.append, Cursor.ofOffset, List.drop_append_of_le_length hpos]

/-- An error that more bytes could not cure is found again in front of them. -/
theorem Steady.run_append {d : Decoder α} (hs : d.Steady) {data : List UInt8} {pos : Nat}
    (hpos : pos ≤ data.length) {e : DecodeError} (he : (d (.ofOffset data pos)).result = .error e)
    {t : List UInt8} (hstands : e.Stands t.length) :
    d (.ofOffset (data ++ t) pos) = (d (.ofOffset data pos)).append t := by
  rw [← append_ofOffset hpos]
  apply (hs (.ofOffset data pos) t).append
  intro e' he'
  obtain rfl := Except.error.inj (he.symm.trans he')
  exact hstands

theorem Recognises.isLocal {d : Decoder α} {E : Grammar α} (hr : d.Recognises E) (hs : d.Steady) :
    d.Local where
  accepted {data pos n a} hpos ha hn t := by
    obtain ⟨hle, hE⟩ := hr.take_drop hpos ha hn
    have hlen : (data.take (pos + n)).length = pos + n := List.length_take_of_le hle
    have hpre : ((data.take (pos + n) ++ t).drop pos).take n = (data.drop pos).take n := by
      rw [List.drop_append_of_le_length (by omega), List.drop_take, Nat.add_sub_cancel_left]
      apply List.take_left'
      rw [List.length_take, List.length_drop]
      omega
    apply (hr _ a _).mpr
    refine ⟨(data.drop pos).take n, (Cursor.spans_ofOffset ?_).mpr hpre, hE⟩
    rw [List.length_append, hlen]
    omega
  refused {data pos error} hpos he t := by
    rw [hs.run_append hpos he trivial]
    simp [Run.append, he, Cursor.append, Except.mapError, DecodeError.extend]
  cut {data pos n a} hpos ha hn k hk := by
    obtain ⟨hle, -⟩ := hr.take_drop hpos ha hn
    have hlen : (data.take (pos + k)).length = pos + k := List.length_take_of_le (by omega)
    have hc := hs (.ofOffset (data.take (pos + k)) pos) (data.drop (pos + k))
    rw [append_ofOffset (by omega), List.take_append_drop] at hc
    cases hcut : (d (.ofOffset (data.take (pos + k)) pos)).result with
    | ok b =>
      -- A value read before the cut would be read from the whole input as well, and end too early.
      have hd := hc.append fun e he => by simp [hcut] at he
      have hn' : (d (.ofOffset (data.take (pos + k)) pos)).cursor.position = pos + n := by
        rw [← hn, hd]
        rfl
      obtain ⟨hle', -⟩ := hr.take_drop (by omega) hcut hn'
      omega
    | error e =>
      cases e with
      | truncatedInput field needed remaining => exact ⟨field, needed, remaining, rfl⟩
      | format error =>
        have hd := hs.run_append (t := data.drop (pos + k)) (by omega) hcut trivial
        rw [List.take_append_drop] at hd
        rw [hd, Run.append, hcut] at ha
        cases ha
      | collaborator cause => exact (hc.shortfall _ hcut).elim
      | refused reason => exact (hc.shortfall _ hcut).elim
  prefixFree ha hb := hr.prefix_free (hr.accepts.mp ha) (hr.accepts.mp hb)

end Decoder

/-- Bytes behind a block are counted and refused. -/
theorem Block.ofBytes_encode_append {b : Block Transaction Header} (hw : b.WellFormed)
    (hf : b.Fits) {t : List UInt8} (ht : t ≠ []) :
    (ofBytes (b.encode ++ t)).result = .error (.format (.trailingBytes t.length)) := by
  have hs : (Cursor.ofBytes (b.encode ++ t)).Spans b.encode ⟨b.encode.length, t⟩ := by
    simp [Cursor.Spans, Cursor.ofBytes, Cursor.ofOffset]
  obtain ⟨hr, hc⟩ := (recognises_decode _ b _).mpr ⟨b.encode, hs, ⟨hw, hf⟩, rfl⟩
  unfold ofBytes
  rcases hrun : decode (.ofBytes (b.encode ++ t)) with ⟨result, cursor, events, accesses⟩
  rw [hrun] at hr hc
  obtain rfl : result = .ok b := hr
  obtain rfl : cursor = ⟨b.encode.length, t⟩ := hc
  simp [Cursor.isEmpty, Cursor.remaining, ht]

/-- Every decoder of the wire format is local, and a block with bytes behind it is refused for them. -/
theorem local_decode :
    Header.decode.Local ∧ Transaction.decode.Local ∧ Merkle.Branch.decode.Local ∧
      AuxProof.decode.Local ∧ Block.decode.Local ∧
      ∀ b : Block Transaction Header, b.WellFormed → b.Fits → ∀ t, t ≠ [] →
        (Block.ofBytes (b.encode ++ t)).result = .error (.format (.trailingBytes t.length)) := by
  have hc := lawful_count
  have htx := Transaction.recognises_decodeCounting hc
  have haux : AuxProof.decode.Recognises _ :=
    AuxProof.recognises_decodeCounting hc htx Header.recognises_decode
  refine ⟨?_, ?_, ?_, ?_, ?_, ?_⟩
  · exact Header.recognises_decode.isLocal Header.steady_decode
  · exact htx.isLocal Transaction.steady_decode
  · exact (Merkle.Branch.recognises_decodeCounting hc).isLocal Merkle.Branch.steady_decode
  · exact haux.isLocal AuxProof.steady_decode
  · exact Block.recognises_decode.isLocal Block.steady_decode
  · intro b hw hf t ht
    exact Block.ofBytes_encode_append hw hf ht

theorem sample_cut_and_continued :
    (∃ field needed remaining,
      (Transaction.decode (.ofOffset (Transaction.sample.encode.take (0 + 40)) 0)).result =
        .error (.truncatedInput field needed remaining)) ∧
    Block.sample.WellFormed ∧ Block.sample.Fits ∧
    (Block.ofBytes (Block.sample.encode ++ [0, 0])).result = .error (.format (.trailingBytes 2)) := by
  obtain ⟨-, htx, -, -, -, hblock⟩ := local_decode
  have hread : (Transaction.decode (.ofOffset Transaction.sample.encode 0)).result =
      .ok Transaction.sample := by decide +kernel
  have hposition : (Transaction.decode (.ofOffset Transaction.sample.encode 0)).cursor.position =
      0 + 67 := by decide +kernel
  have hw : Block.sample.WellFormed := by decide
  have hf : Block.sample.Fits := Block.fits_of_length_encode (by decide +kernel)
  refine ⟨?_, hw, hf, hblock Block.sample hw hf [0, 0] (by decide)⟩
  exact htx.cut (Nat.zero_le _) hread hposition 40 (by decide)

end MergedMining
