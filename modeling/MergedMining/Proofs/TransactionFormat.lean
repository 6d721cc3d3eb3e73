import MergedMining.Proofs.Counts
import MergedMining.Transaction.Format

/-! The format of a transaction. Reading accepts exactly the encodings of transactions that have an
input, in the layout that their witnesses call for. -/
namespace MergedMining.Transaction

open Decoder

/-- Every length of an input has an encoding. -/
structure Input.Fits (input : Input) : Prop where
  scriptSig : input.scriptSig.length < UInt64.size
  witness : input.witness.length < UInt64.size
  items : ∀ item ∈ input.witness, item.length < UInt64.size

/-- Every length of a transaction has an encoding, as the length of any list in memory has. -/
structure Fits (tx : Transaction) : Prop where
  inputs : tx.inputs.length < UInt64.size
  eachInput : ∀ input ∈ tx.inputs, input.Fits
  outputs : tx.outputs.length < UInt64.size
  eachOutput : ∀ output ∈ tx.outputs, output.scriptPubkey.length < UInt64.size

def Input.withoutWitness (input : Input) : Input := { input with witness := [] }

theorem flatMap_encode_of_withoutWitness {inputs bare : List Input}
    (h : inputs.map Input.withoutWitness = bare.map Input.withoutWitness) :
    inputs.flatMap Input.encode = bare.flatMap Input.encode := by
  have hmap (l : List Input) : (l.map Input.withoutWitness).flatMap Input.encode =
      l.flatMap Input.encode := List.flatMap_map _ _ _
  rw [← hmap inputs, h, hmap bare]

section Parts

variable {count : CountReader}

theorem recognises_decodeScript (hc : CountReader.Lawful count) (field : String) :
    (decodeScript count field).Recognises
      (.written encodeScript fun script => script.length < UInt64.size) := by
  refine (hc.bind (fun n => recognises_bytes n field) fun n b bs h => ?_).congr fun script bs => ?_
  · obtain ⟨rfl, rfl⟩ := h
    exact Nat.le_of_eq (Nat.mul_one _)
  · constructor
    · intro h
      rcases h with ⟨v, t, rfl, hn, ht⟩
      have hv : UInt64.ofNat script.length = v := by rw [hn, UInt64.ofNat_toNat]
      have hlt : script.length < UInt64.size := hn ▸ v.toNat_lt
      refine ⟨hlt, ?_⟩
      rw [encodeScript, VarInt.encodeLength, hv, ht, id]
    · intro h
      rcases h with ⟨hn, rfl⟩
      exact ⟨UInt64.ofNat script.length, script, rfl, (UInt64.toNat_ofNat_of_lt' hn).symm, rfl⟩

theorem one_le_length_encodeScript (script : List UInt8) : 1 ≤ (encodeScript script).length := by
  have h := VarInt.one_le_length_encode (UInt64.ofNat script.length)
  simp only [encodeScript, VarInt.encodeLength, List.length_append]
  omega

theorem recognises_decodeStack (hc : CountReader.Lawful count) :
    (decodeStack count).Recognises (.written encodeStack fun stack =>
      stack.length < UInt64.size ∧ ∀ item ∈ stack, item.length < UInt64.size) := by
  have h : (decodeStack count).Recognises (.counted (.written encodeScript fun item =>
      item.length < UInt64.size)) := by
    refine hc.list (recognises_decodeScript hc _) fun item bs hb => ?_
    obtain ⟨-, rfl⟩ := hb
    exact one_le_length_encodeScript item
  rw [Grammar.counted_written] at h
  exact h

theorem Input.recognises_decode (hc : CountReader.Lawful count) :
    (Input.decode count).Recognises (.written Input.encode fun input =>
      input.witness = [] ∧ input.scriptSig.length < UInt64.size) := by
  unfold Input.decode
  refine Recognises.congr ((recognises_hash _).bind fun txid => (recognises_uint32 _).bind fun vout =>
    (recognises_decodeScript hc _).bind fun scriptSig => (recognises_uint32 _).bind fun sequence =>
    .only _) fun input bs => ?_
  simp only [Grammar.written_seq, Grammar.written, Grammar.only, true_and]
  constructor
  · intro h
    rcases h with ⟨txid, _, rfl, vout, _, rfl, scriptSig, hs, _, rfl, sequence, _, rfl, rfl, rfl⟩
    exact ⟨⟨rfl, hs⟩, by simp [Input.encode]⟩
  · intro h
    rcases h with ⟨⟨hw, hs⟩, rfl⟩
    refine ⟨input.previousOutput.txid, _, ?_, input.previousOutput.vout, _, rfl, input.scriptSig, hs,
      _, rfl, input.sequence, [], rfl, ?_, rfl⟩
    · simp [Input.encode]
    · rw [← hw]

theorem Input.minSize_le (input : Input) : minSize ≤ input.encode.length := by
  have h := one_le_length_encodeScript input.scriptSig
  simp only [minSize, Input.encode, List.length_append, Hash256.length_bytes,
    LittleEndian.encodeUInt32, LittleEndian.length_encode]
  omega

theorem Output.recognises_decode (hc : CountReader.Lawful count) :
    (Output.decode count).Recognises (.written Output.encode fun output =>
      output.scriptPubkey.length < UInt64.size) := by
  unfold Output.decode
  refine Recognises.congr ((recognises_uint64 _).bind fun value =>
    (recognises_decodeScript hc _).bind fun scriptPubkey => .only _) fun output bs => ?_
  simp only [Grammar.written_seq, Grammar.written, Grammar.only, true_and]
  constructor
  · intro h
    rcases h with ⟨value, _, rfl, scriptPubkey, hs, _, rfl, rfl, rfl⟩
    exact ⟨hs, by simp [Output.encode]⟩
  · intro h
    rcases h with ⟨hs, rfl⟩
    refine ⟨output.value, _, ?_, output.scriptPubkey, hs, [], rfl, rfl, rfl⟩
    simp [Output.encode]

theorem Output.minSize_le (output : Output) : minSize ≤ output.encode.length := by
  have h := one_le_length_encodeScript output.scriptPubkey
  simp only [minSize, Output.encode, List.length_append, LittleEndian.encodeUInt64,
    LittleEndian.length_encode]
  omega

/-- The inputs that may come out of `bare` when the section of the witnesses has been read. -/
def witnesses : Layout → List Input → Grammar (List Input)
  | .legacy, bare => .only bare
  | .witness, bare => .written (fun inputs => inputs.flatMap fun input => encodeStack input.witness)
      fun inputs => inputs.map Input.withoutWitness = bare.map Input.withoutWitness ∧
        (∀ input ∈ inputs, input.witness.length < UInt64.size ∧
          ∀ item ∈ input.witness, item.length < UInt64.size) ∧
        ∃ input ∈ inputs, input.witness ≠ []

def withWitnesses (bare : List Input) (ws : List (List (List UInt8))) : List Input :=
  bare.zipWith (fun input stack => { input with witness := stack }) ws

/-- Inputs are put together from what they are without their stacks, and the stacks. -/
theorem eq_withWitnesses {bare inputs : List Input} {ws : List (List (List UInt8))} :
    ws.length = bare.length ∧ inputs = withWitnesses bare ws ↔
      ws = inputs.map Input.witness ∧
        inputs.map Input.withoutWitness = bare.map Input.withoutWitness := by
  induction bare generalizing inputs ws with
  | nil => cases ws <;> cases inputs <;> simp [withWitnesses]
  | cons input bare ih =>
    cases ws with
    | nil => cases inputs <;> simp
    | cons stack ws =>
      cases inputs with
      | nil => simp [withWitnesses]
      | cons input' inputs =>
        have h := @ih inputs ws
        obtain ⟨previousOutput, scriptSig, sequence, witness⟩ := input
        obtain ⟨previousOutput', scriptSig', sequence', witness'⟩ := input'
        simp only [withWitnesses, List.length_cons, Nat.add_right_cancel_iff,
          List.zipWith_cons_cons, List.cons.injEq, List.map_cons, Input.withoutWitness,
          Input.mk.injEq, and_true] at h ⊢
        grind

theorem recognises_attach (bare : List Input) (ws : List (List (List UInt8))) :
    (if ws.all List.isEmpty then fail (.format .superfluousWitness)
      else pure (withWitnesses bare ws) : Decoder (List Input)).Recognises fun inputs bs =>
      (∃ stack ∈ ws, stack ≠ []) ∧ inputs = withWitnesses bare ws ∧ bs = [] := by
  have he : ¬ ws.all List.isEmpty = true ↔ ∃ stack ∈ ws, stack ≠ [] := by simp
  simp only [← he]
  exact .guarded (fun _ _ _ => not_returns_fail) _

theorem recognises_decodeWitnesses (hc : CountReader.Lawful count) (layout : Layout)
    (bare : List Input) :
    (decodeWitnesses count layout bare).Recognises (witnesses layout bare) := by
  cases layout with
  | legacy => exact .only bare
  | witness =>
    unfold decodeWitnesses
    refine Recognises.congr (((recognises_decodeStack hc).times bare.length).bind
      fun ws => recognises_attach bare ws) fun inputs bs => ?_
    simp only [Grammar.seq, Grammar.list_written, witnesses, Grammar.written]
    constructor
    · intro h
      rcases h with ⟨ws, _, _, rfl, ⟨hn, hv, rfl⟩, he, hi, rfl⟩
      obtain ⟨rfl, hb⟩ := eq_withWitnesses.mp ⟨hn, hi⟩
      refine ⟨⟨hb, ?_, ?_⟩, ?_⟩
      · simpa using hv
      · obtain ⟨_, hmem, hne⟩ := he
        obtain ⟨input, hin, rfl⟩ := List.mem_map.mp hmem
        exact ⟨input, hin, hne⟩
      · rw [List.append_nil, List.flatMap_map]
    · intro h
      rcases h with ⟨⟨hb, hv, he⟩, rfl⟩
      obtain ⟨hn, hi⟩ := eq_withWitnesses.mpr ⟨rfl, hb⟩
      refine ⟨inputs.map Input.witness, _, [], (List.append_nil _).symm, ⟨hn, ?_, ?_⟩, ?_, hi, rfl⟩
      · simpa using hv
      · rw [List.flatMap_map]
      · obtain ⟨input, hmem, hne⟩ := he
        exact ⟨_, List.mem_map_of_mem hmem, hne⟩

/-- What follows the version and the marker. -/
def encodeBody (tx : Transaction) (layout : Layout) : List UInt8 :=
  VarInt.encodeLength tx.inputs ++ tx.inputs.flatMap Input.encode
    ++ VarInt.encodeLength tx.outputs ++ tx.outputs.flatMap Output.encode
    ++ (if layout = .witness then tx.inputs.flatMap fun input => encodeStack input.witness else [])
    ++ LittleEndian.encodeUInt32 tx.lockTime

theorem encodeAs_eq (tx : Transaction) (layout : Layout) : tx.encodeAs layout =
    LittleEndian.encodeInt32 tx.version ++
      ((if layout = .witness then [0, 1] else []) ++ tx.encodeBody layout) := by
  simp [encodeAs, encodeBody]

theorem layout_eq_witness {tx : Transaction} :
    tx.layout = .witness ↔ ∃ input ∈ tx.inputs, input.witness ≠ [] := by
  simp [layout, hasWitness]

theorem layout_eq_legacy {tx : Transaction} :
    tx.layout = .legacy ↔ ∀ input ∈ tx.inputs, input.witness = [] := by
  simp [layout, hasWitness]

/-- Reads what follows the version and the marker. -/
def decodeBody (count : CountReader) (version : Int32) (layout : Layout) : Decoder Transaction := do
  let bare ← Decoder.times (← count "tx.input_count" Input.minSize) (Input.decode count)
  let outputs ← Decoder.times (← count "tx.output_count" Output.minSize) (Output.decode count)
  let inputs ← decodeWitnesses count layout bare
  let lockTime ← .uint32 "tx.lock_time"
  return { version, inputs, outputs, lockTime }

theorem decodeCounting_eq (count : CountReader) : decodeCounting count = (do
    let version ← .int32 "tx.version"
    let layout ← decodeLayout
    decodeBody count version layout) := rfl

/-- The inputs without their witnesses, the outputs, the witnesses `w` and the lock time. -/
def body (layout : Layout) : Grammar Transaction := fun tx bs => ∃ bare w,
  (bare.length < UInt64.size ∧
    ∀ input ∈ bare, input.witness = [] ∧ input.scriptSig.length < UInt64.size) ∧
  (tx.outputs.length < UInt64.size ∧
    ∀ output ∈ tx.outputs, output.scriptPubkey.length < UInt64.size) ∧
  witnesses layout bare tx.inputs w ∧
  bs = VarInt.encodeLength bare ++ bare.flatMap Input.encode ++ VarInt.encodeLength tx.outputs
    ++ tx.outputs.flatMap Output.encode ++ w ++ LittleEndian.encodeUInt32 tx.lockTime

theorem recognises_decodeBody (hc : CountReader.Lawful count) (version : Int32) (layout : Layout) :
    (decodeBody count version layout).Recognises fun tx bs =>
      tx.version = version ∧ body layout tx bs := by
  unfold decodeBody
  refine Recognises.congr (hc.list_bind (Input.recognises_decode hc) ?_ fun _ bare =>
    hc.list_bind (Output.recognises_decode hc) ?_ fun _ outputs =>
    (recognises_decodeWitnesses hc layout bare).bind fun inputs =>
    (recognises_uint32 _).bind fun lockTime => .only _) fun tx bs => ?_
  · intro input bs h
    rcases h with ⟨-, rfl⟩
    exact input.minSize_le
  · intro output bs h
    rcases h with ⟨-, rfl⟩
    exact output.minSize_le
  · simp only [Grammar.counted_written, Grammar.written_seq]
    constructor
    · intro h
      rcases h with ⟨bare, hin, _, rfl, outputs, hout, _, rfl, inputs, w, _, rfl, hw, lockTime, _, _,
        rfl, ⟨-, rfl⟩, rfl, rfl⟩
      exact ⟨rfl, bare, w, hin, hout, hw, by simp⟩
    · intro h
      rcases h with ⟨rfl, bare, w, hin, hout, hw, rfl⟩
      refine ⟨bare, hin, _, ?_, tx.outputs, hout, _, rfl, tx.inputs, w, _, rfl, hw, tx.lockTime, _, [],
        rfl, ⟨trivial, rfl⟩, rfl, rfl⟩
      simp

theorem body_legacy {tx : Transaction} {bs : List UInt8} :
    body .legacy tx bs ↔ (tx.layout = .legacy ∧ tx.Fits) ∧ bs = tx.encodeBody .legacy := by
  constructor
  · intro h
    obtain ⟨bare, w, ⟨hi, hin⟩, ⟨ho, hout⟩, ⟨hb, rfl⟩, rfl⟩ := h
    rw [← hb] at hi hin
    refine ⟨⟨layout_eq_legacy.mpr fun input h => (hin input h).1, hi, ?_, ho, hout⟩, ?_⟩
    · intro input h
      obtain ⟨hw, hs⟩ := hin input h
      exact ⟨hs, by simp [hw, UInt64.size], by simp [hw]⟩
    · simp [encodeBody, hb]
  · intro h
    obtain ⟨⟨hl, hf⟩, rfl⟩ := h
    have hin : ∀ input ∈ tx.inputs, input.witness = [] ∧ input.scriptSig.length < UInt64.size :=
      fun input h => ⟨layout_eq_legacy.mp hl input h, (hf.eachInput input h).scriptSig⟩
    refine ⟨tx.inputs, [], ⟨hf.inputs, hin⟩, ⟨hf.outputs, hf.eachOutput⟩, ⟨rfl, rfl⟩, ?_⟩
    simp [encodeBody]

theorem body_witness {tx : Transaction} {bs : List UInt8} :
    body .witness tx bs ↔ (tx.layout = .witness ∧ tx.Fits) ∧ bs = tx.encodeBody .witness := by
  constructor
  · intro h
    obtain ⟨bare, _, ⟨hi, hin⟩, ⟨ho, hout⟩, ⟨⟨hb, hst, hne⟩, rfl⟩, rfl⟩ := h
    have hlen : tx.inputs.length = bare.length := by simpa using congrArg List.length hb
    refine ⟨⟨layout_eq_witness.mpr hne, hlen ▸ hi, ?_, ho, hout⟩, ?_⟩
    · intro input h
      obtain ⟨input', h', he⟩ := List.mem_map.mp (hb ▸ List.mem_map_of_mem h)
      obtain ⟨-, hs, -, -⟩ := Input.mk.inj he
      exact ⟨hs ▸ (hin input' h').2, (hst input h).1, (hst input h).2⟩
    · simp [encodeBody, VarInt.encodeLength, hlen, flatMap_encode_of_withoutWitness hb]
  · intro h
    obtain ⟨⟨hl, hf⟩, rfl⟩ := h
    have hb : tx.inputs.map Input.withoutWitness =
        (tx.inputs.map Input.withoutWitness).map Input.withoutWitness := by
      simp [Input.withoutWitness]
    have hst : ∀ input ∈ tx.inputs, input.witness.length < UInt64.size ∧
        ∀ item ∈ input.witness, item.length < UInt64.size :=
      fun input h => ⟨(hf.eachInput input h).witness, (hf.eachInput input h).items⟩
    refine ⟨tx.inputs.map Input.withoutWitness, _, ⟨by simpa using hf.inputs, ?_⟩,
      ⟨hf.outputs, hf.eachOutput⟩, ⟨⟨hb, hst, layout_eq_witness.mp hl⟩, rfl⟩, ?_⟩
    · intro input h
      obtain ⟨input', h', rfl⟩ := List.mem_map.mp h
      exact ⟨rfl, (hf.eachInput input' h').scriptSig⟩
    · simp [encodeBody, VarInt.encodeLength, ← flatMap_encode_of_withoutWitness hb]

theorem body_iff (layout : Layout) {tx : Transaction} {bs : List UInt8} :
    body layout tx bs ↔ (tx.layout = layout ∧ tx.Fits) ∧ bs = tx.encodeBody layout := by
  cases layout with
  | legacy => exact body_legacy
  | witness => exact body_witness

theorem returns_decodeLayout {c c' : Cursor} {layout : Layout} :
    decodeLayout.Returns c layout c' ↔
      (layout = .witness ∧ c.Spans [0, 1] c') ∨ (layout = .legacy ∧ c.peek ≠ some 0 ∧ c' = c) := by
  have hu (field : String) (c m : Cursor) (b : UInt8) :
      (uint8 field).Returns c b m ↔ c.Spans [b] m := by
    simp [recognises_uint8 field c b m, Grammar.written]
  have hs : c.Spans [0, 1] c' ↔ ∃ m, c.Spans [0] m ∧ m.Spans [1] c' :=
    Cursor.spans_append (s := [0]) (t := [1])
  unfold decodeLayout
  rw [returns_bind, hs]
  simp only [returns_here]
  constructor
  · intro h
    rcases h with ⟨_, _, ⟨rfl, rfl⟩, h⟩
    split_ifs at h with hp
    · obtain ⟨b, m, hb, h⟩ := returns_bind.mp h
      obtain ⟨flag, m', hflag, h⟩ := returns_bind.mp h
      split_ifs at h with hf
      · obtain ⟨rfl, rfl⟩ := returns_pure.mp h
        rw [hu] at hb hflag
        have : b = 0 := by simpa [Cursor.peek, hb.1] using hp
        exact .inl ⟨rfl, m, this ▸ hb, hf ▸ hflag⟩
      · exact absurd h not_returns_fail
    · obtain ⟨rfl, rfl⟩ := returns_pure.mp h
      exact .inr ⟨rfl, hp, rfl⟩
  · intro h
    rcases h with ⟨rfl, m, hm, hc⟩ | ⟨rfl, hp, rfl⟩
    · refine ⟨c, c, ⟨rfl, rfl⟩, ?_⟩
      have hp : c.peek = some 0 := by simp [Cursor.peek, hm.1]
      rw [if_pos hp]
      exact returns_bind.mpr ⟨0, m, (hu _ _ _ _).mpr hm, returns_bind.mpr ⟨1, c', (hu _ _ _ _).mpr hc,
        returns_pure.mpr ⟨rfl, rfl⟩⟩⟩
    · refine ⟨c', c', ⟨rfl, rfl⟩, ?_⟩
      rw [if_neg hp]
      exact returns_pure.mpr ⟨rfl, rfl⟩

/-- The marker of the witness layout is told apart by the first byte of what comes instead. -/
theorem recognises_decodeLayout_bind {β : Type} {f : Layout → Decoder β} {F : Layout → Grammar β}
    (hf : ∀ layout, (f layout).Recognises (F layout)) (hn : ∀ b, ¬ F .legacy b []) :
    (decodeLayout >>= f).Recognises fun b bs =>
      (∃ t, bs = 0 :: 1 :: t ∧ F .witness b t) ∨ bs.head? ≠ some 0 ∧ F .legacy b bs := by
  intro c b c'
  rw [returns_bind]
  constructor
  · intro h
    rcases h with ⟨layout, m, hl, hb⟩
    rcases returns_decodeLayout.mp hl with ⟨rfl, hm⟩ | ⟨rfl, hp, rfl⟩
    · obtain ⟨t, ht, hF⟩ := (hf _ _ _ _).mp hb
      exact ⟨0 :: 1 :: t, Cursor.spans_append.mpr ⟨m, hm, ht⟩, .inl ⟨t, rfl, hF⟩⟩
    · obtain ⟨bs, hs, hF⟩ := (hf _ _ _ _).mp hb
      refine ⟨bs, hs, .inr ⟨?_, hF⟩⟩
      cases bs with
      | nil => simp
      | cons x bs => simpa [Cursor.peek, hs.1] using hp
  · intro h
    rcases h with ⟨bs, hs, ⟨t, rfl, hF⟩ | ⟨hh, hF⟩⟩
    · obtain ⟨m, hm, ht⟩ := Cursor.spans_append.mp (show c.Spans ([0, 1] ++ t) c' from hs)
      exact ⟨_, m, returns_decodeLayout.mpr (.inl ⟨rfl, hm⟩), (hf _ _ _ _).mpr ⟨t, ht, hF⟩⟩
    · refine ⟨_, c, returns_decodeLayout.mpr (.inr ⟨rfl, ?_, rfl⟩), (hf _ _ _ _).mpr ⟨bs, hs, hF⟩⟩
      cases bs with
      | nil => exact absurd hF (hn b)
      | cons x bs => simpa [Cursor.peek, hs.1] using hh

theorem encodeBody_ne_nil (tx : Transaction) (layout : Layout) : tx.encodeBody layout ≠ [] := by
  simp [encodeBody, VarInt.encodeLength_ne_nil]

/-- The count of no inputs is the only one that starts like the marker. -/
theorem head?_encodeBody {tx : Transaction} (hf : tx.Fits) (layout : Layout) :
    (tx.encodeBody layout).head? = some 0 ↔ tx.inputs = [] := by
  have hh := VarInt.head?_encodeLength (b := 0) (by decide) hf.inputs
  rw [UInt8.toNat_zero, List.length_eq_zero_iff] at hh
  rw [← hh]
  simp [encodeBody, List.head?_append, VarInt.encodeLength_ne_nil]

theorem recognises_decodeCounting (hc : CountReader.Lawful count) :
    (decodeCounting count).Recognises (.written encode fun tx => tx.inputs ≠ [] ∧ tx.Fits) := by
  rw [decodeCounting_eq]
  refine Recognises.congr ((recognises_int32 _).bind fun version =>
    recognises_decodeLayout_bind (fun layout => recognises_decodeBody hc version layout) ?_)
    fun tx bs => ?_
  · intro tx h
    obtain ⟨-, h⟩ := body_legacy.mp h.2
    exact tx.encodeBody_ne_nil .legacy h.symm
  · simp only [Grammar.written_seq, Grammar.written, body_iff, true_and]
    constructor
    · intro h
      rcases h with ⟨version, _, rfl, ⟨_, rfl, rfl, ⟨hl, hf⟩, rfl⟩ | ⟨hh, rfl, ⟨hl, hf⟩, rfl⟩⟩
      · obtain ⟨input, hmem, -⟩ := layout_eq_witness.mp hl
        exact ⟨⟨List.ne_nil_of_mem hmem, hf⟩, by simp [encode, encodeAs_eq, hl]⟩
      · rw [ne_eq, head?_encodeBody hf] at hh
        exact ⟨⟨hh, hf⟩, by simp [encode, encodeAs_eq, hl]⟩
    · intro h
      rcases h with ⟨⟨hi, hf⟩, rfl⟩
      refine ⟨tx.version, _, encodeAs_eq tx _, ?_⟩
      cases hl : tx.layout with
      | legacy => exact .inr ⟨mt (head?_encodeBody hf _).mp hi, rfl, ⟨rfl, hf⟩, rfl⟩
      | witness => exact .inl ⟨_, rfl, rfl, ⟨rfl, hf⟩, rfl⟩

end Parts

theorem recognises_decode :
    decode.Recognises (.written encode fun tx => tx.inputs ≠ [] ∧ tx.Fits) :=
  recognises_decodeCounting lawful_count

theorem minSize_le (tx : Transaction) : minSize ≤ tx.encode.length := by
  have hi := VarInt.one_le_length_encode (UInt64.ofNat tx.inputs.length)
  have ho := VarInt.one_le_length_encode (UInt64.ofNat tx.outputs.length)
  simp only [minSize, encode, encodeAs, VarInt.encodeLength, List.length_append,
    LittleEndian.encodeInt32, LittleEndian.encodeUInt32, LittleEndian.length_encode]
  omega

theorem Input.scriptSig_le (input : Input) : input.scriptSig.length ≤ input.encode.length := by
  simp only [Input.encode, encodeScript, List.length_append]
  omega

theorem Output.scriptPubkey_le (output : Output) :
    output.scriptPubkey.length ≤ output.encode.length := by
  simp only [Output.encode, encodeScript, List.length_append]
  omega

theorem length_le_length_encodeStack (stack : List (List UInt8)) :
    stack.length ≤ (encodeStack stack).length := by
  have h := Grammar.length_le_length_flatMap one_le_length_encodeScript stack
  simp only [encodeStack, List.length_append]
  omega

theorem length_item_le_length_encodeStack {item : List UInt8} {stack : List (List UInt8)}
    (h : item ∈ stack) : item.length ≤ (encodeStack stack).length := by
  have hl : (encodeScript item).length ≤ (stack.flatMap encodeScript).length :=
    Grammar.length_le_length_flatMap_of_mem h
  simp only [encodeStack, encodeScript, List.length_append] at hl ⊢
  omega

/-- A transaction whose encoding can be addressed has no length that is out of range. -/
theorem fits_of_length_encode {tx : Transaction} (h : tx.encode.length < UInt64.size) : tx.Fits := by
  have hin : (tx.inputs.flatMap Input.encode).length ≤ tx.encode.length := by
    simp only [encode, encodeAs, List.length_append]
    omega
  have hout : (tx.outputs.flatMap Output.encode).length ≤ tx.encode.length := by
    simp only [encode, encodeAs, List.length_append]
    omega
  have hstack (input : Input) (hi : input ∈ tx.inputs) (hw : input.witness ≠ []) :
      (encodeStack input.witness).length ≤ tx.encode.length := by
    have hl := layout_eq_witness.mpr ⟨input, hi, hw⟩
    have hs := @Grammar.length_le_length_flatMap_of_mem Input
      (fun input => encodeStack input.witness) input tx.inputs hi
    simp only [encode, encodeAs, hl, if_true, List.length_append]
    omega
  refine ⟨?_, fun input hi => ?_, ?_, fun output ho => ?_⟩
  · have := Grammar.length_le_length_flatMap
      (fun i => Nat.le_trans (by decide : 1 ≤ Input.minSize) (Input.minSize_le i)) tx.inputs
    omega
  · have hs : input.encode.length ≤ (tx.inputs.flatMap Input.encode).length :=
      Grammar.length_le_length_flatMap_of_mem hi
    have := input.scriptSig_le
    by_cases hw : input.witness = []
    · exact ⟨by omega, by simp [hw, UInt64.size], by simp [hw]⟩
    · have hst := hstack input hi hw
      refine ⟨by omega, ?_, fun item hm => ?_⟩
      · have := length_le_length_encodeStack input.witness
        omega
      · have := length_item_le_length_encodeStack hm
        omega
  · have := Grammar.length_le_length_flatMap
      (fun o => Nat.le_trans (by decide : 1 ≤ Output.minSize) (Output.minSize_le o)) tx.outputs
    omega
  · have hs : output.encode.length ≤ (tx.outputs.flatMap Output.encode).length :=
      Grammar.length_le_length_flatMap_of_mem ho
    have := output.scriptPubkey_le
    omega

theorem drop_encode (tx : Transaction) (rest : List UInt8) : (tx.encode ++ rest).drop 4 =
    (if tx.layout = .witness then [0, 1] else []) ++ (tx.encodeBody tx.layout ++ rest) := by
  rw [encode, encodeAs_eq, List.append_assoc, List.append_assoc]
  exact List.drop_left' (LittleEndian.length_encodeInt32 _)

/-- What stands behind the version tells whether there are witnesses. -/
theorem hasWitness_iff_marker {tx : Transaction} (hi : tx.inputs ≠ []) (hf : tx.Fits)
    (rest : List UInt8) :
    tx.hasWitness = true ↔ ((tx.encode ++ rest).drop 4).take 2 = [0, 1] := by
  have hw : tx.hasWitness = true ↔ tx.layout = .witness := by simp [layout]
  rw [drop_encode, hw]
  cases hl : tx.layout with
  | witness => simp
  | legacy =>
    have hh := mt (head?_encodeBody hf .legacy).mp hi
    obtain ⟨b, bs, hb⟩ := List.exists_cons_of_ne_nil (tx.encodeBody_ne_nil .legacy)
    simp only [hb, List.head?_cons, Option.some.injEq] at hh
    simp [hb, hh]

/-- Wherever a cursor stands, a transaction is read from the next bytes if and only if they are its
encoding and it has an input. It comes with witnesses exactly if marker and flag stand behind the
version. -/
theorem decode_ofOffset_eq_ok_iff {data : List UInt8} (hdata : data.length < 2 ^ 63) {pos n : Nat}
    (hn : pos + n ≤ data.length) (tx : Transaction) :
    ((decode (.ofOffset data pos)).result = .ok tx ∧
        (decode (.ofOffset data pos)).cursor = .ofOffset data (pos + n) ↔
      tx.inputs ≠ [] ∧ (data.drop pos).take n = tx.encode) ∧
    ((decode (.ofOffset data pos)).result = .ok tx →
      tx.inputs ≠ [] ∧ (tx.hasWitness = true ↔ (data.drop (pos + 4)).take 2 = [0, 1])) := by
  have hr : decode.Recognises (.written encode fun tx => tx.inputs ≠ [] ∧ tx.Fits) :=
    recognises_decodeCounting lawful_count
  constructor
  · change decode.Returns _ tx _ ↔ _
    rw [hr]
    simp only [Cursor.spans_ofOffset hn, Grammar.written, exists_eq_left']
    constructor
    · intro h
      rcases h with ⟨⟨hi, -⟩, he⟩
      exact ⟨hi, he⟩
    · intro h
      rcases h with ⟨hi, he⟩
      refine ⟨⟨hi, fits_of_length_encode ?_⟩, he⟩
      have hlen := congrArg List.length he
      rw [List.length_take, List.length_drop] at hlen
      have : (2 : Nat) ^ 63 < UInt64.size := by decide
      omega
  · intro h
    obtain ⟨bs, hs, ⟨hi, hf⟩, rfl⟩ := (hr _ tx _).mp ⟨h, rfl⟩
    have hrest : data.drop pos = tx.encode ++ _ := hs.1
    rw [← List.drop_drop, hrest]
    exact ⟨hi, hasWitness_iff_marker hi hf _⟩

/-- One input with a witness of one item, and one output. -/
def sample : Transaction where
  version := 2
  inputs := [{ previousOutput := .null, scriptSig := [0x51], sequence := 0, witness := [[0xaa]] }]
  outputs := [{ value := 5000000000, scriptPubkey := [0x51] }]
  lockTime := 0

theorem decode_sample_between_bytes :
    let data := 0xff :: sample.encode ++ [0xff]
    (decode (.ofOffset data 1)).result = .ok sample ∧
      (decode (.ofOffset data 1)).cursor = .ofOffset data (1 + sample.encode.length) ∧
      sample.hasWitness = true ∧ (data.drop (1 + 4)).take 2 = [0, 1] := by
  intro data
  have hdata : data.length < 2 ^ 63 := by decide
  have hn : 1 + sample.encode.length ≤ data.length := by decide
  have hw : sample.hasWitness = true := by decide
  have h := decode_ofOffset_eq_ok_iff hdata hn sample
  obtain ⟨hread, hcursor⟩ := h.1.mpr ⟨by decide, by decide⟩
  exact ⟨hread, hcursor, hw, (h.2 hread).2.mp hw⟩

end MergedMining.Transaction
