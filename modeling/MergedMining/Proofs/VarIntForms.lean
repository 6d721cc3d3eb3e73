import MergedMining.Proofs.Failures

/-! The forms of an integer of variable length. A value can be written in every form that is wide
enough for it. The shortest one is written, nothing else is read, and a longer one is refused with its
marker and its value. -/
namespace MergedMining

namespace VarInt

/-- The forms that can hold a value: a single byte below the markers, or a marker and a number of two,
four or eight bytes. -/
inductive Spelling (v : UInt64) : List UInt8 → Prop
  | one (h : v.toNat < 0xfd) : Spelling v [v.toUInt8]
  | three (h : v.toNat < 2 ^ 16) : Spelling v (0xfd :: LittleEndian.encode 2 v.toNat)
  | five (h : v.toNat < 2 ^ 32) : Spelling v (0xfe :: LittleEndian.encode 4 v.toNat)
  | nine (h : v.toNat < 2 ^ 64) : Spelling v (0xff :: LittleEndian.encode 8 v.toNat)

variable {v : UInt64} {bs payload : List UInt8} {marker : UInt8} {form : Form}

theorem spelling_encode (v : UInt64) : Spelling v (encode v) := by
  have hv : v.toNat < 2 ^ 64 := v.toNat_lt
  rw [encode_eq]
  split_ifs with h₁ h₂ h₃
  · exact .one h₁
  · exact .three (by omega)
  · exact .five (by omega)
  · exact .nine hv

/-- Any other form of the value is longer than the one that is written. -/
theorem Spelling.eq_or_lt (h : Spelling v bs) :
    bs = encode v ∨ (encode v).length < bs.length := by
  rw [encode_eq]
  cases h with
  | one h => simp [h]
  | three h => split_ifs <;> simp <;> omega
  | five h => split_ifs <;> simp; omega
  | nine h => split_ifs <;> simp

theorem exists_shorter_iff {n : Nat} :
    (∃ bs, Spelling v bs ∧ bs.length < n) ↔ (encode v).length < n := by
  constructor
  · intro h
    obtain ⟨bs, hbs, hlt⟩ := h
    rcases hbs.eq_or_lt with rfl | hle
    · exact hlt
    · exact hle.trans hlt
  · intro h
    exact ⟨encode v, spelling_encode v, h⟩

theorem form?_of_lt (h : marker.toNat < 0xfd) : form? marker = none := by
  unfold form?
  split_ifs with h₁ h₂ h₃
  · simp [h₁] at h
  · simp [h₂] at h
  · simp [h₃] at h
  · rfl

theorem width_le_of_form? (hf : form? marker = some form) : form.width ≤ 8 := by
  unfold form? at hf
  split_ifs at hf <;> cases hf <;> decide

/-- Behind a marker stands a number of the width that it announces. -/
theorem spelling_cons_iff (hf : form? marker = some form) :
    Spelling v (marker :: payload) ↔
      v.toNat < 256 ^ form.width ∧ payload = LittleEndian.encode form.width v.toNat := by
  constructor
  · intro h
    cases h with
    | one h =>
      have hlt : v.toUInt8.toNat < 0xfd := by
        rw [UInt64.toNat_toUInt8]
        omega
      cases (form?_of_lt hlt).symm.trans hf
    | three h => cases hf; exact ⟨h, rfl⟩
    | five h => cases hf; exact ⟨h, rfl⟩
    | nine h => cases hf; exact ⟨h, rfl⟩
  · intro h
    obtain ⟨hv, rfl⟩ := h
    unfold form? at hf
    split_ifs at hf with h₁ h₂ h₃
    · cases hf
      exact h₁ ▸ .three hv
    · cases hf
      exact h₂ ▸ .five hv
    · cases hf
      exact h₃ ▸ .nine hv

/-- The least value of a form is where the shorter forms end. -/
theorem lt_least_iff (hf : form? marker = some form) :
    v < form.least ↔ (encode v).length < form.width + 1 := by
  unfold form? at hf
  rw [encode_eq, UInt64.lt_iff_toNat_lt]
  split_ifs at hf <;> cases hf <;> split_ifs <;> simp <;> omega

/-- What stands behind a byte that is no marker is no part of its value. -/
theorem Spelling.form?_of_shorter (h : Spelling v (marker :: payload))
    (hlt : (encode v).length < (marker :: payload).length) : ∃ form, form? marker = some form := by
  cases h with
  | one h =>
    have := one_le_length_encode v
    simp only [List.length_singleton] at hlt
    omega
  | three h => exact ⟨_, rfl⟩
  | five h => exact ⟨_, rfl⟩
  | nine h => exact ⟨_, rfl⟩

end VarInt

namespace Decoder

variable {field : String} {c c' : Cursor}

/-- A value is refused for its form exactly where a whole form of it stands and a shorter one would
do. -/
theorem fails_varInt_nonCanonical_iff {marker : UInt8} {value : UInt64} :
    (varInt field).Fails c (.format (.nonCanonicalVarInt marker value)) c' ↔
      c' = c ∧ ∃ payload, marker :: payload <+: c.rest ∧ VarInt.Spelling value (marker :: payload) ∧
        ∃ bs, VarInt.Spelling value bs ∧ bs.length < (marker :: payload).length := by
  simp only [VarInt.exists_shorter_iff]
  constructor
  · intro h
    rcases fails_varInt.mp h with h | ⟨marker', m, form, hm, hf, h | ⟨n, m', hn, hlt, he, rfl⟩⟩
    · obtain ⟨-, he, -⟩ := (failsShort_uint8 field c _ c').mp h
      cases he
    · obtain ⟨-, he, -⟩ := (failsShort_number form.width field m _ c').mp h
      cases he
    · obtain ⟨rfl, rfl⟩ : marker = marker' ∧ value = .ofNat n := by simpa using he
      obtain ⟨rest, hrest, rfl⟩ := returns_uint8.mp hm
      obtain ⟨_, hs, hsize, rfl⟩ := (recognises_number form.width field _ n m').mp hn
      have hw := VarInt.width_le_of_form? hf
      have hn' : (UInt64.ofNat n).toNat = n := by
        apply UInt64.toNat_ofNat_of_lt'
        exact hsize.trans_le (Nat.pow_le_pow_right (by decide) hw)
      have hadvance : rest = LittleEndian.encode form.width n ++ m'.rest := by
        rw [← hs.1, Cursor.advance, hrest]
        rfl
      refine ⟨rfl, LittleEndian.encode form.width n, ?_, ?_, ?_⟩
      · exact ⟨m'.rest, by rw [hrest, hadvance, List.cons_append]⟩
      · rw [VarInt.spelling_cons_iff hf, hn']
        exact ⟨hsize, rfl⟩
      · rw [List.length_cons, LittleEndian.length_encode]
        exact (VarInt.lt_least_iff hf).mp hlt
  · intro h
    obtain ⟨rfl, payload, ⟨after, hrest⟩, hv, hlt⟩ := h
    obtain ⟨form, hf⟩ := hv.form?_of_shorter hlt
    obtain ⟨hsize, rfl⟩ := (VarInt.spelling_cons_iff hf).mp hv
    rw [List.length_cons, LittleEndian.length_encode] at hlt
    have hm : (uint8 field).Returns c' marker (c'.advance 1) := by
      apply returns_uint8.mpr
      exact ⟨_, hrest.symm, rfl⟩
    have hn : (number form.width field).Returns (c'.advance 1) value.toNat
        (c'.advance (form.width + 1)) := by
      apply (recognises_number form.width field _ _ _).mpr
      refine ⟨_, ⟨?_, ?_⟩, hsize, rfl⟩
      · simp [Cursor.advance, ← hrest]
      · simp [Cursor.advance]
        omega
    apply fails_varInt.mpr
    refine .inr ⟨marker, _, form, hm, hf, .inr ⟨value.toNat, _, hn, ?_, ?_, rfl⟩⟩
    · rw [UInt64.ofNat_toNat]
      exact (VarInt.lt_least_iff hf).mpr hlt
    · rw [UInt64.ofNat_toNat]

/-- Wherever a cursor stands, a value is read from the next bytes if and only if they are what is
written for it. What is written is appended, is the shortest form that can hold the value, and is that
of no other value. The longer forms are refused with their marker and their value, and nothing else is
refused in that way. -/
theorem varInt_canonical (field : String) (data : List UInt8) :
    (∀ {pos n : Nat}, pos + n ≤ data.length → ∀ v,
      (varInt field).Returns (.ofOffset data pos) v (.ofOffset data (pos + n)) ↔
        (data.drop pos).take n = VarInt.encode v) ∧
    (∀ out v, VarInt.encodeInto out v = out ++ VarInt.encode v) ∧
    (∀ v, VarInt.Spelling v (VarInt.encode v) ∧ ∀ bs, VarInt.Spelling v bs →
      bs = VarInt.encode v ∨ (VarInt.encode v).length < bs.length) ∧
    Function.Injective VarInt.encode ∧
    ∀ pos marker value c,
      (varInt field).Fails (.ofOffset data pos) (.format (.nonCanonicalVarInt marker value)) c ↔
        c = .ofOffset data pos ∧ ∃ payload, marker :: payload <+: data.drop pos ∧
          VarInt.Spelling value (marker :: payload) ∧
          ∃ bs, VarInt.Spelling value bs ∧ bs.length < (marker :: payload).length := by
  refine ⟨?_, VarInt.encodeInto_eq_append, ?_, ?_, ?_⟩
  · intro pos n hn v
    rw [recognises_varInt]
    simp [Cursor.spans_ofOffset hn, Grammar.written]
  · intro v
    exact ⟨VarInt.spelling_encode v, fun bs h => h.eq_or_lt⟩
  · intro v w h
    exact (recognises_varInt field).encode_injOn trivial trivial h
  · intro pos marker value c
    exact fails_varInt_nonCanonical_iff

/-- Between two other bytes stands 253 in three bytes, the first form that can hold it, and behind them
5 in three bytes. -/
theorem varInt_canonical_boundary :
    let data := [0xff, 0xfd, 0xfd, 0x00, 0xfd, 0x05, 0x00]
    1 + 3 ≤ data.length ∧
      (varInt "n").Returns (.ofOffset data 1) 253 (.ofOffset data (1 + 3)) ∧
      (varInt "n").Fails (.ofOffset data 4) (.format (.nonCanonicalVarInt 0xfd 5))
        (.ofOffset data 4) := by
  intro data
  have hn : 1 + 3 ≤ data.length := by decide
  obtain ⟨hread, -, -, -, hrefused⟩ := varInt_canonical "n" data
  refine ⟨hn, (hread hn 253).mpr (by decide), (hrefused 4 0xfd 5 _).mpr ⟨rfl, [5, 0], ?_, ?_, [5], ?_, ?_⟩⟩
  · decide
  · exact .three (by decide)
  · exact .one (by decide)
  · decide

end Decoder

end MergedMining
