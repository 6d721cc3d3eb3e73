import MergedMining.Proofs.SettledReads

/-! Which of its two layouts a transaction is read from. A transaction with an input is read from the
layout that its witnesses call for and from no other, and the witness layout is refused by name when
there is no witness in it or its flag is not one. -/
namespace MergedMining

namespace Decoder

variable {α β : Type}

namespace Recognises

variable {d : Decoder α} {encode : α → List UInt8} {valid : α → Prop}

/-- What is written for a value is read as that value, whatever comes behind it. -/
theorem returns (hd : d.Recognises (.written encode valid)) {a : α} (ha : valid a) (position : Nat)
    (t : List UInt8) : d.Returns ⟨position, encode a ++ t⟩ a ⟨position + (encode a).length, t⟩ :=
  (hd _ a _).mpr ⟨encode a, ⟨rfl, rfl⟩, ha, rfl⟩

theorem returns_times (hd : d.Recognises (.written encode valid)) {as : List α}
    (h : ∀ a ∈ as, valid a) (position : Nat) (t : List UInt8) :
    (Decoder.times as.length d).Returns ⟨position, as.flatMap encode ++ t⟩ as
      ⟨position + (as.flatMap encode).length, t⟩ :=
  (hd.times as.length _ as _).mpr ⟨_, ⟨rfl, rfl⟩, rfl, Grammar.list_written.mpr ⟨h, rfl⟩⟩

end Recognises

/-- What fails behind a list fails behind its count and its elements. -/
theorem fails_list_bind {count : CountReader} {field : String} {least : Nat} {d : Decoder α}
    {g : Nat → List α → Decoder β} {as : List α} {c m c' : Cursor} {e : DecodeError}
    (h : (count field least >>= fun n => times n d).Returns c as m)
    (hg : ∀ n, (g n as).Fails m e c') :
    (count field least >>= fun n => times n d >>= g n).Fails c e c' := by
  obtain ⟨n, m', hn, has⟩ := returns_bind.mp h
  exact fails_bind.mpr (.inr ⟨n, m', hn, fails_bind.mpr (.inr ⟨as, m, has, hg n⟩)⟩)

end Decoder

namespace Transaction

open Decoder

variable {tx : Transaction}

/-- With an input, the byte behind the version is zero in the witness layout and in no other. -/
theorem head?_drop_encodeAs (hi : tx.inputs ≠ []) (hf : tx.Fits) (layout : Layout) (t : List UInt8) :
    ((tx.encodeAs layout ++ t).drop 4).head? = some 0 ↔ layout = .witness := by
  have hdrop : (tx.encodeAs layout ++ t).drop 4 =
      (if layout = .witness then [0, 1] else []) ++ (tx.encodeBody layout ++ t) := by
    rw [encodeAs_eq, List.append_assoc, List.append_assoc]
    exact List.drop_left' (LittleEndian.length_encodeInt32 _)
  rw [hdrop]
  cases layout with
  | witness => simp
  | legacy =>
    have hh := mt (head?_encodeBody hf .legacy).mp hi
    simpa [List.head?_append_of_ne_nil _ (tx.encodeBody_ne_nil .legacy)] using hh

theorem layout_eq_of_encodeAs_append_eq (hi : tx.inputs ≠ []) (hf : tx.Fits) {layout layout' : Layout}
    {t t' : List UInt8} (h : tx.encodeAs layout ++ t = tx.encodeAs layout' ++ t') :
    layout = layout' := by
  have hw := head?_drop_encodeAs hi hf layout t
  rw [h, head?_drop_encodeAs hi hf layout' t'] at hw
  cases layout <;> cases layout' <;> simp_all

theorem result_decode_encodeAs_eq_ok_iff (hf : tx.Fits) (position : Nat) (layout : Layout)
    (t : List UInt8) : (decode ⟨position, tx.encodeAs layout ++ t⟩).result = .ok tx ↔
      tx.inputs ≠ [] ∧ layout = tx.layout := by
  constructor
  · intro h
    obtain ⟨bs, hs, ⟨hi, -⟩, rfl⟩ := (recognises_decode _ tx _).mp ⟨h, rfl⟩
    exact ⟨hi, layout_eq_of_encodeAs_append_eq hi hf hs.1⟩
  · intro h
    obtain ⟨hi, rfl⟩ := h
    exact (recognises_decode.returns ⟨hi, hf⟩ position t).1

/-- Stacks that are all empty are refused when they have been read. -/
theorem fails_decodeWitnesses (hl : tx.layout = .legacy) (position : Nat) (t : List UInt8) :
    (decodeWitnesses .count .witness tx.inputs).Fails
      ⟨position, (tx.inputs.flatMap fun input => encodeStack input.witness) ++ t⟩
      (.format .superfluousWitness)
      ⟨position + (tx.inputs.flatMap fun input => encodeStack input.witness).length, t⟩ := by
  rw [layout_eq_legacy] at hl
  have hfits : ∀ stack ∈ tx.inputs.map Input.witness,
      stack.length < UInt64.size ∧ ∀ item ∈ stack, item.length < UInt64.size := by
    intro stack hs
    obtain ⟨input, hi, rfl⟩ := List.mem_map.mp hs
    simp [hl input hi, UInt64.size]
  have hread := (recognises_decodeStack lawful_count).returns_times hfits position t
  rw [List.length_map, List.flatMap_map] at hread
  have hempty : (tx.inputs.map Input.witness).all List.isEmpty = true := by
    simpa using hl
  unfold decodeWitnesses
  apply fails_bind.mpr
  refine .inr ⟨_, _, hread, ?_⟩
  rw [if_pos hempty]
  exact fails_fail.mpr ⟨rfl, rfl⟩

theorem recognises_inputs :
    (count "tx.input_count" Input.minSize >>= fun n => times n (Input.decode .count)).Recognises
      (.written (fun inputs => VarInt.encodeLength inputs ++ inputs.flatMap Input.encode) fun inputs =>
        inputs.length < UInt64.size ∧
          ∀ input ∈ inputs, input.witness = [] ∧ input.scriptSig.length < UInt64.size) := by
  rw [← Grammar.counted_written]
  apply lawful_count.list (Input.recognises_decode lawful_count)
  intro input bs h
  obtain ⟨-, rfl⟩ := h
  exact input.minSize_le

theorem recognises_outputs :
    (count "tx.output_count" Output.minSize >>= fun n => times n (Output.decode .count)).Recognises
      (.written (fun outputs => VarInt.encodeLength outputs ++ outputs.flatMap Output.encode)
        fun outputs => outputs.length < UInt64.size ∧
          ∀ output ∈ outputs, output.scriptPubkey.length < UInt64.size) := by
  rw [← Grammar.counted_written]
  apply lawful_count.list (Output.recognises_decode lawful_count)
  intro output bs h
  obtain ⟨-, rfl⟩ := h
  exact output.minSize_le

/-- Up to the lock time everything is there: the inputs, the outputs, and an empty stack for each
input. -/
theorem fails_decodeBody (hf : tx.Fits) (hl : tx.layout = .legacy) (version : Int32)
    (position : Nat) (t : List UInt8) : (decodeBody .count version .witness).Fails
      ⟨position, tx.encodeBody .witness ++ t⟩ (.format .superfluousWitness)
      ⟨position + ((tx.encodeBody .witness).length - 4),
        LittleEndian.encodeUInt32 tx.lockTime ++ t⟩ := by
  have hin : ∀ input ∈ tx.inputs, input.witness = [] ∧ input.scriptSig.length < UInt64.size :=
    fun input h => ⟨layout_eq_legacy.mp hl input h, (hf.eachInput input h).scriptSig⟩
  have hend : tx.encodeBody .witness ++ t =
      (VarInt.encodeLength tx.inputs ++ tx.inputs.flatMap Input.encode) ++
        ((VarInt.encodeLength tx.outputs ++ tx.outputs.flatMap Output.encode) ++
          ((tx.inputs.flatMap fun input => encodeStack input.witness) ++
            (LittleEndian.encodeUInt32 tx.lockTime ++ t))) := by
    simp [encodeBody]
  rw [hend]
  unfold decodeBody
  apply fails_list_bind (recognises_inputs.returns ⟨hf.inputs, hin⟩ position _)
  intro _
  apply fails_list_bind (recognises_outputs.returns ⟨hf.outputs, hf.eachOutput⟩ _ _)
  intro _
  have hw := fails_decodeWitnesses hl
    (position + (VarInt.encodeLength tx.inputs ++ tx.inputs.flatMap Input.encode).length +
      (VarInt.encodeLength tx.outputs ++ tx.outputs.flatMap Output.encode).length)
    (LittleEndian.encodeUInt32 tx.lockTime ++ t)
  have hposition : position + ((tx.encodeBody .witness).length - 4) =
      position + (VarInt.encodeLength tx.inputs ++ tx.inputs.flatMap Input.encode).length +
        (VarInt.encodeLength tx.outputs ++ tx.outputs.flatMap Output.encode).length +
        (tx.inputs.flatMap fun input => encodeStack input.witness).length := by
    simp only [encodeBody, if_true, List.length_append, LittleEndian.length_encodeUInt32]
    omega
  rw [hposition]
  exact fails_bind.mpr (.inl hw)

theorem fails_decode_superfluous (hf : tx.Fits) (hl : tx.layout = .legacy) (position : Nat)
    (t : List UInt8) :
    decode.Fails ⟨position, tx.encodeAs .witness ++ t⟩ (.format .superfluousWitness)
      ⟨position + ((tx.encodeAs .witness).length - 4),
        LittleEndian.encodeUInt32 tx.lockTime ++ t⟩ := by
  have hversion := (recognises_int32 "tx.version").returns (a := tx.version) trivial position
    ([0, 1] ++ (tx.encodeBody .witness ++ t))
  have hmarker : decodeLayout.Returns
      ⟨position + (LittleEndian.encodeInt32 tx.version).length, [0, 1] ++ (tx.encodeBody .witness ++ t)⟩
      .witness ⟨position + (LittleEndian.encodeInt32 tx.version).length + 2,
        tx.encodeBody .witness ++ t⟩ :=
    returns_decodeLayout.mpr (.inl ⟨rfl, rfl, rfl⟩)
  have hbody := fails_decodeBody hf hl tx.version
    (position + (LittleEndian.encodeInt32 tx.version).length + 2) t
  have hposition : position + ((tx.encodeAs .witness).length - 4) =
      position + (LittleEndian.encodeInt32 tx.version).length + 2 +
        ((tx.encodeBody .witness).length - 4) := by
    simp only [encodeAs_eq, encodeBody, if_true, List.length_append,
      LittleEndian.length_encodeUInt32, List.length_cons, List.length_nil]
    omega
  rw [hposition, encodeAs_eq, List.append_assoc, List.append_assoc]
  unfold decode
  rw [decodeCounting_eq]
  apply fails_bind.mpr
  refine .inr ⟨_, _, hversion, ?_⟩
  apply fails_bind.mpr
  exact .inr ⟨_, _, hmarker, hbody⟩

/-- Behind the marker, a byte that is not one is refused when it has been read. -/
theorem fails_decodeLayout {flag : UInt8} (hflag : flag ≠ 1) (position : Nat) (t : List UInt8) :
    decodeLayout.Fails ⟨position, 0 :: flag :: t⟩ (.format (.invalidWitnessFlag flag))
      ⟨position + 2, t⟩ := by
  have hpeek : (Cursor.mk position (0 :: flag :: t)).peek = some 0 := rfl
  have hread : (uint8 "tx.flag").Returns ((Cursor.mk position (0 :: flag :: t)).advance 1) flag
      ⟨position + 2, t⟩ := returns_uint8.mpr ⟨t, rfl, rfl⟩
  exact fails_decodeLayout_iff.mpr ⟨hpeek, .inr ⟨flag, hflag, hread, rfl⟩⟩

theorem encodeAs_witness_set (tx : Transaction) (flag : UInt8) :
    (tx.encodeAs .witness).set 5 flag =
      LittleEndian.encodeInt32 tx.version ++ (0 :: flag :: tx.encodeBody .witness) := by
  have hlen := LittleEndian.length_encodeInt32 tx.version
  rw [encodeAs_eq, List.set_append_right _ _ (by omega), hlen]
  rfl

theorem fails_decode_flag {flag : UInt8} (hflag : flag ≠ 1) (position : Nat) (t : List UInt8) :
    decode.Fails ⟨position, (tx.encodeAs .witness).set 5 flag ++ t⟩
      (.format (.invalidWitnessFlag flag)) ⟨position + 6, (tx.encodeAs .witness).drop 6 ++ t⟩ := by
  have hversion := (recognises_int32 "tx.version").returns (a := tx.version) trivial position
    (0 :: flag :: (tx.encodeBody .witness ++ t))
  have hlen := LittleEndian.length_encodeInt32 tx.version
  have hdrop : (tx.encodeAs .witness).drop 6 = tx.encodeBody .witness := by
    rw [encodeAs_eq, ← List.append_assoc]
    apply List.drop_left'
    simp [hlen]
  have hmarker := fails_decodeLayout hflag (position + (LittleEndian.encodeInt32 tx.version).length)
    (tx.encodeBody .witness ++ t)
  rw [hlen] at hversion hmarker
  rw [hdrop, encodeAs_witness_set, List.append_assoc]
  unfold decode
  rw [decodeCounting_eq]
  apply fails_bind.mpr
  refine .inr ⟨_, _, hversion, ?_⟩
  exact fails_bind.mpr (.inl hmarker)

/-- A transaction is read from one of its layouts if and only if it has an input and the layout is the
one with witnesses exactly when there are some. Without witnesses the witness layout is refused as
superfluous in front of the lock time, and with a flag other than one it is refused for that flag. -/
theorem decode_encodeAs (hf : tx.Fits) (position : Nat) (t : List UInt8) :
    (∀ layout, (decode ⟨position, tx.encodeAs layout ++ t⟩).result = .ok tx ↔
      tx.inputs ≠ [] ∧ (layout = .witness ↔ tx.hasWitness = true)) ∧
    (tx.hasWitness = false →
      decode.Fails ⟨position, tx.encodeAs .witness ++ t⟩ (.format .superfluousWitness)
        ⟨position + ((tx.encodeAs .witness).length - 4),
          LittleEndian.encodeUInt32 tx.lockTime ++ t⟩) ∧
    ∀ flag ≠ 1,
      decode.Fails ⟨position, (tx.encodeAs .witness).set 5 flag ++ t⟩
        (.format (.invalidWitnessFlag flag)) ⟨position + 6, (tx.encodeAs .witness).drop 6 ++ t⟩ := by
  refine ⟨?_, ?_, ?_⟩
  · intro layout
    have hl : layout = tx.layout ↔ (layout = .witness ↔ tx.hasWitness = true) := by
      cases layout <;> cases hw : tx.hasWitness <;> simp [Transaction.layout, hw]
    rw [← hl]
    exact result_decode_encodeAs_eq_ok_iff hf position layout t
  · intro hw
    have hl : tx.layout = .legacy := by simp [layout, hw]
    exact fails_decode_superfluous hf hl position t
  · intro flag hflag
    exact fails_decode_flag hflag position t

/-- The sample has a witness, and a transaction of nothing has none. -/
theorem decode_encodeAs_sample :
    let empty : Transaction := ⟨1, [], [], 0⟩
    sample.Fits ∧ empty.Fits ∧ empty.hasWitness = false ∧
      (decode ⟨0, sample.encodeAs .witness ++ [7]⟩).result = .ok sample ∧
      (decode ⟨0, sample.encodeAs .legacy ++ [7]⟩).result ≠ .ok sample ∧
      decode.Fails ⟨0, empty.encodeAs .witness ++ [7]⟩ (.format .superfluousWitness)
        ⟨8, [0, 0, 0, 0, 7]⟩ ∧
      decode.Fails ⟨0, (empty.encodeAs .witness).set 5 2 ++ [7]⟩ (.format (.invalidWitnessFlag 2))
        ⟨6, [0, 0, 0, 0, 0, 0, 7]⟩ := by
  intro empty
  have hf : sample.Fits := fits_of_length_encode (by decide)
  have hf' : empty.Fits := fits_of_length_encode (by decide)
  have hw : empty.hasWitness = false := rfl
  obtain ⟨hlayout, -, -⟩ := decode_encodeAs hf 0 [7]
  obtain ⟨-, hsuperfluous, hflag⟩ := decode_encodeAs hf' 0 [7]
  have hend : Cursor.mk (0 + ((empty.encodeAs .witness).length - 4))
      (LittleEndian.encodeUInt32 empty.lockTime ++ [7]) = ⟨8, [0, 0, 0, 0, 7]⟩ := by decide
  have hbody : (empty.encodeAs .witness).drop 6 ++ [7] = [0, 0, 0, 0, 0, 0, 7] := by decide
  refine ⟨hf, hf', hw, ?_, ?_, ?_, ?_⟩
  · exact (hlayout .witness).mpr (by decide)
  · exact mt (hlayout .legacy).mp (by decide)
  · rw [← hend]
    exact hsuperfluous hw
  · rw [← hbody]
    exact hflag 2 (by decide)

end Transaction

end MergedMining
