import MergedMining.Proofs.Recognition

/-! Integers and counts of variable length, and the lists behind a count. A reader of counts may
refuse a count that the input cannot bear out, and nothing else. -/
namespace MergedMining

namespace VarInt

/-- What follows a marker: nothing where the marker is the value itself, and otherwise a number that
fits no shorter form. -/
def tail (marker : UInt8) : Grammar UInt64 :=
  match form? marker with
  | none => .only marker.toUInt64
  | some form => .written (fun v => LittleEndian.encode form.width v.toNat)
      fun v => v.toNat < 256 ^ form.width ∧ ¬ v < form.least

theorem encode_eq (v : UInt64) : encode v =
    if v.toNat < 0xfd then [v.toUInt8]
    else if v.toNat ≤ 0xffff then 0xfd :: LittleEndian.encode 2 v.toNat
    else if v.toNat ≤ 0xffffffff then 0xfe :: LittleEndian.encode 4 v.toNat
    else 0xff :: LittleEndian.encode 8 v.toNat := by
  simp only [encode, encodeInto, UInt64.lt_iff_toNat_lt, UInt64.le_iff_toNat_le, List.nil_append]
  rfl

theorem form?_eq_none {marker : UInt8} (h₁ : marker ≠ 0xfd) (h₂ : marker ≠ 0xfe)
    (h₃ : marker ≠ 0xff) : form? marker = none ∧ marker.toNat < 0xfd := by
  have h : marker.toNat < 256 := marker.toNat_lt
  simp only [ne_eq, ← UInt8.toNat_inj] at h₁ h₂ h₃
  simp only [form?, ← UInt8.toNat_inj, h₁, h₂, h₃, if_false, true_and]
  simp at h₁ h₂ h₃
  omega

/-- The ranges of the encoder meet the least values of the decoder. -/
theorem cons_eq_encode {marker : UInt8} {bs : List UInt8} {v : UInt64} :
    marker :: bs = encode v ↔ tail marker v bs := by
  have hv : v.toNat < 256 ^ 8 := v.toNat_lt
  rw [encode_eq]
  by_cases h₁ : marker = 0xfd
  · have hf : form? 0xfd = some ⟨2, 0xfd⟩ := rfl
    simp only [h₁, tail, hf, Grammar.written, UInt64.lt_iff_toNat_lt]
    split_ifs <;> simp [← UInt8.toNat_inj] <;> omega
  by_cases h₂ : marker = 0xfe
  · have hf : form? 0xfe = some ⟨4, 0x10000⟩ := rfl
    simp only [h₂, tail, hf, Grammar.written, UInt64.lt_iff_toNat_lt]
    split_ifs <;> simp [← UInt8.toNat_inj] <;> omega
  by_cases h₃ : marker = 0xff
  · have hf : form? 0xff = some ⟨8, 0x100000000⟩ := rfl
    simp only [h₃, tail, hf, Grammar.written, UInt64.lt_iff_toNat_lt]
    split_ifs <;> simp [← UInt8.toNat_inj] <;> omega
  · obtain ⟨hf, hm⟩ := form?_eq_none h₁ h₂ h₃
    simp only [tail, hf, Grammar.only]
    split_ifs <;> simp [← UInt8.toNat_inj, ← UInt64.toNat_inj] <;> omega

theorem encode_ne_nil (v : UInt64) : encode v ≠ [] := by
  rw [encode_eq]
  split_ifs <;> simp

theorem encodeLength_ne_nil {α : Type} (xs : List α) : encodeLength xs ≠ [] := encode_ne_nil _

/-- A first byte that is no marker gives the value away. -/
theorem head?_encode {b : UInt8} (hb : b.toNat < 0xfd) (v : UInt64) :
    (encode v).head? = some b ↔ v.toNat = b.toNat := by
  have hv : v.toNat < 2 ^ 64 := v.toNat_lt
  rw [encode_eq]
  split_ifs <;> simp [← UInt8.toNat_inj] <;> omega

theorem head?_encodeLength {α : Type} {b : UInt8} (hb : b.toNat < 0xfd) {xs : List α}
    (hn : xs.length < UInt64.size) : (encodeLength xs).head? = some b ↔ xs.length = b.toNat := by
  rw [encodeLength, head?_encode hb, UInt64.toNat_ofNat_of_lt' hn]

theorem one_le_length_encode (v : UInt64) : 1 ≤ (encode v).length :=
  List.length_pos_iff.mpr (encode_ne_nil v)

end VarInt

namespace Decoder

variable {α β : Type}

theorem recognises_form {marker : UInt8} {form : VarInt.Form} (hf : VarInt.form? marker = some form)
    (start : Cursor) (field : String) :
    (do
      let value := UInt64.ofNat (← number form.width field)
      if value < form.least then failAt start (.format (.nonCanonicalVarInt marker value))
      else return value : Decoder UInt64).Recognises
      (.written (fun v => LittleEndian.encode form.width v.toNat)
        fun v => v.toNat < 256 ^ form.width ∧ ¬ v < form.least) := by
  have hw : 256 ^ form.width ≤ 256 ^ 8 := by
    unfold VarInt.form? at hf
    split_ifs at hf <;> cases hf <;> decide
  refine ((recognises_number form.width field).bind fun n =>
    .guarded (fun _ _ _ => not_returns_failAt) _).congr fun v bs => ?_
  rw [Grammar.written_seq]
  constructor
  · intro h
    rcases h with ⟨n, hn, _, rfl, hl, rfl, rfl⟩
    have hsize : n < 256 ^ 8 := Nat.lt_of_lt_of_le hn hw
    have hn' : (UInt64.ofNat n).toNat = n := UInt64.toNat_ofNat_of_lt' hsize
    exact ⟨⟨by rwa [hn'], hl⟩, by simp only [hn', List.append_nil]⟩
  · intro h
    rcases h with ⟨⟨hv, hl⟩, rfl⟩
    refine ⟨v.toNat, hv, [], (List.append_nil _).symm, ?_, UInt64.ofNat_toNat.symm, rfl⟩
    rwa [UInt64.ofNat_toNat]

theorem recognises_varInt (field : String) :
    (varInt field).Recognises (.written VarInt.encode fun _ => True) := by
  refine Recognises.here_bind fun start => ?_
  refine ((recognises_uint8 field).bind (F := VarInt.tail) fun marker => ?_).congr fun v bs => ?_
  · unfold VarInt.tail
    cases hf : VarInt.form? marker with
    | none => exact .only _
    | some form => exact recognises_form hf start field
  · rw [Grammar.written_seq]
    constructor
    · intro h
      rcases h with ⟨marker, -, t, rfl, h⟩
      exact ⟨trivial, VarInt.cons_eq_encode.mpr h⟩
    · intro h
      rcases h with ⟨-, rfl⟩
      cases hv : VarInt.encode v with
      | nil => exact absurd hv (VarInt.encode_ne_nil v)
      | cons marker t =>
        exact ⟨marker, trivial, t, rfl, VarInt.cons_eq_encode.mp hv.symm⟩

/-- A reader of counts gives the number that is encoded, and refuses it only if the elements cannot
follow. -/
structure CountReader.Lawful (count : CountReader) : Prop where
  spans : ∀ {field : String} {least n : Nat} {c c' : Cursor},
    (count field least).Returns c n c' → ∃ v : UInt64, v.toNat = n ∧ c.Spans (VarInt.encode v) c'
  returns : ∀ {field : String} {least : Nat} {v : UInt64} {c c' : Cursor},
    c.Spans (VarInt.encode v) c' → v.toNat * max least 1 ≤ c'.remaining →
      (count field least).Returns c v.toNat c'

theorem lawful_plainCount : CountReader.Lawful plainCount where
  spans {field least n c c'} h := by
    obtain ⟨v, m, hv, hn⟩ := returns_bind.mp h
    obtain ⟨rfl, rfl⟩ := returns_pure.mp hn
    obtain ⟨_, hc, -, rfl⟩ := (recognises_varInt field c v c').mp hv
    exact ⟨v, rfl, hc⟩
  returns {field least v c c'} hc _ :=
    returns_bind.mpr ⟨v, c', (recognises_varInt field c v c').mpr ⟨_, hc, trivial, rfl⟩,
      returns_pure.mpr ⟨rfl, rfl⟩⟩

theorem lawful_count : CountReader.Lawful count where
  spans {field least n c c'} h := by
    obtain ⟨start, _, hstart, hread⟩ := returns_bind.mp h
    obtain ⟨rfl, rfl⟩ := returns_here.mp hstart
    obtain ⟨v, _, hv, hcheck⟩ := returns_bind.mp hread
    obtain ⟨after, _, hafter, hn⟩ := returns_bind.mp hcheck
    obtain ⟨rfl, rfl⟩ := returns_here.mp hafter
    split_ifs at hn
    · obtain ⟨rfl, rfl⟩ := returns_pure.mp hn
      obtain ⟨_, hc, -, rfl⟩ := (recognises_varInt field _ v _).mp hv
      exact ⟨v, rfl, hc⟩
    · exact absurd hn not_returns_failAt
  returns {field least v c c'} hc hle := by
    have hg : hasAtLeast (saturatingMul v.toNat (max least 1)) c'.rest = true :=
      hasAtLeast_iff.mpr (Nat.le_trans (Nat.min_le_left _ _) hle)
    refine returns_bind.mpr ⟨c, c, returns_here.mpr ⟨rfl, rfl⟩, returns_bind.mpr
      ⟨v, c', (recognises_varInt field c v c').mpr ⟨_, hc, trivial, rfl⟩, returns_bind.mpr
      ⟨c', c', returns_here.mpr ⟨rfl, rfl⟩, ?_⟩⟩⟩
    rw [if_pos hg]
    exact returns_pure.mpr ⟨rfl, rfl⟩

namespace CountReader.Lawful

variable {count : CountReader} {d : Decoder α} {E : Grammar α} {field : String} {least : Nat}

/-- Elements that are never shorter than announced leave the guard nothing to refuse. -/
theorem bind (hc : Lawful count) {f : Nat → Decoder β} {F : Nat → Grammar β}
    (hf : ∀ n, (f n).Recognises (F n))
    (hm : ∀ n b bs, F n b bs → n * max least 1 ≤ bs.length) :
    (count field least >>= f).Recognises fun b bs =>
      ∃ (v : UInt64) (t : List UInt8), bs = VarInt.encode v ++ t ∧ F v.toNat b t := by
  intro c b c'
  rw [returns_bind]
  constructor
  · intro h
    rcases h with ⟨n, m, hn, h⟩
    obtain ⟨v, rfl, hv⟩ := hc.spans hn
    obtain ⟨t, ht, hb⟩ := (hf _ m b c').mp h
    exact ⟨VarInt.encode v ++ t, Cursor.spans_append.mpr ⟨m, hv, ht⟩, v, t, rfl, hb⟩
  · intro h
    rcases h with ⟨_, h, v, t, rfl, hb⟩
    obtain ⟨m, hv, ht⟩ := Cursor.spans_append.mp h
    have hle : v.toNat * max least 1 ≤ m.remaining := by
      have := hm _ b t hb
      have := ht.remaining
      omega
    exact ⟨v.toNat, m, hc.returns hv hle, (hf _ m b c').mpr ⟨t, ht, hb⟩⟩

/-- A count, as many elements, and what comes after the list. -/
theorem list_bind (hc : Lawful count) {g : Nat → List α → Decoder β} {G : List α → Grammar β}
    (hd : d.Recognises E) (hm : ∀ a bs, E a bs → max least 1 ≤ bs.length)
    (hg : ∀ n as, (g n as).Recognises (G as)) :
    (count field least >>= fun n => times n d >>= g n).Recognises ((Grammar.counted E).seq G) := by
  refine (hc.bind (fun n => (hd.times n).bind (hg n)) fun n b bs h => ?_).congr fun b bs => ?_
  · obtain ⟨as, s, t, rfl, ⟨rfl, hs⟩, -⟩ := h
    have := Grammar.length_list_le hm hs
    rw [List.length_append]
    omega
  · constructor
    · intro h
      rcases h with ⟨v, _, rfl, as, s, t, rfl, ⟨hn, hs⟩, hb⟩
      have hv : UInt64.ofNat as.length = v := by rw [hn, UInt64.ofNat_toNat]
      refine ⟨as, VarInt.encode v ++ s, t, (List.append_assoc _ _ _).symm, ⟨?_, s, ?_, hs⟩, hb⟩
      · exact hn ▸ v.toNat_lt
      · rw [VarInt.encodeLength, hv]
    · intro h
      rcases h with ⟨as, _, t, rfl, ⟨hn, s, rfl, hs⟩, hb⟩
      exact ⟨UInt64.ofNat as.length, s ++ t, List.append_assoc _ _ _, as, s, t, rfl,
        ⟨(UInt64.toNat_ofNat_of_lt' hn).symm, hs⟩, hb⟩

theorem list (hc : Lawful count) (hd : d.Recognises E)
    (hm : ∀ a bs, E a bs → max least 1 ≤ bs.length) :
    (count field least >>= fun n => times n d).Recognises (.counted E) := by
  intro c as c'
  have h : (count field least >>= fun n => times n d >>= pure).Recognises
      ((Grammar.counted E).seq .only) := hc.list_bind hd hm fun _ as => .only as
  have h' := h c as c'
  simp only [Grammar.seq_only] at h'
  rw [← h']
  simp [returns_bind]

end CountReader.Lawful

end Decoder

end MergedMining
