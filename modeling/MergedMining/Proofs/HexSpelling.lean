import Mathlib
import MergedMining.Proofs.HexText

/-! Which texts are read as hexadecimal: the digits of the bytes, in either case, and nothing else. Of
several things wrong with a text, an odd length is found before a character that is no digit, and that
before a length that does not suit a hash. -/
namespace MergedMining

namespace Hex

def IsDigit (c : Char) : Prop :=
  ('0' ≤ c ∧ c ≤ '9') ∨ ('a' ≤ c ∧ c ≤ 'f') ∨ ('A' ≤ c ∧ c ≤ 'F')

instance : DecidablePred IsDigit := fun c => by
  unfold IsDigit
  infer_instance

theorem isDigit_ofNat_iff (b : UInt8) : IsDigit (.ofNat b.toNat) ↔ (digitValue? b).isSome = true := by
  have h : ∀ n < 256, IsDigit (.ofNat n) ↔ (digitValue? (.ofNat n)).isSome = true := by
    decide +kernel
  have hb := h b.toNat b.toNat_lt
  rwa [UInt8.ofNat_toNat] at hb

theorem exists_digitAt {b : UInt8} (hb : IsDigit (.ofNat b.toNat)) :
    ∃ v, ∀ offset, digitAt offset b = .ok v := by
  obtain ⟨v, hv⟩ := Option.isSome_iff_exists.mp ((isDigit_ofNat_iff b).mp hb)
  exact ⟨v, fun offset => by rw [digitAt, hv]⟩

theorem digitAt_of_not_isDigit {b : UInt8} (hb : ¬ IsDigit (.ofNat b.toNat)) (offset : Nat) :
    digitAt offset b = .error (.invalidCharacter b offset) := by
  rw [isDigit_ofNat_iff, Option.not_isSome_iff_eq_none] at hb
  rw [digitAt, hb]

/-- The first byte that is no digit is blamed, wherever it stands in its pair. -/
theorem decodeFrom_of_not_isDigit (offset : Nat) {front rest : List UInt8} {b : UInt8}
    (heven : Even (front ++ b :: rest).length) (hfront : ∀ x ∈ front, IsDigit (.ofNat x.toNat))
    (hb : ¬ IsDigit (.ofNat b.toNat)) :
    decodeFrom offset (front ++ b :: rest) = .error (.invalidCharacter b (offset + front.length)) := by
  induction front using List.twoStepInduction generalizing offset with
  | nil =>
    cases rest with
    | nil => simp at heven
    | cons low rest =>
      rw [List.nil_append, decodeFrom, digitAt_of_not_isDigit hb]
      rfl
  | singleton high =>
    obtain ⟨v, hv⟩ := exists_digitAt (hfront high (by simp))
    rw [List.singleton_append, decodeFrom, hv, digitAt_of_not_isDigit hb]
    rfl
  | cons_cons high low front ih _ =>
    obtain ⟨v, hv⟩ := exists_digitAt (hfront high (by simp))
    obtain ⟨w, hw⟩ := exists_digitAt (hfront low (by simp))
    have heven' : Even (front ++ b :: rest).length := by
      simpa [Nat.even_add_one, Nat.not_even_iff_odd] using heven
    have hfront' : ∀ x ∈ front, IsDigit (.ofNat x.toNat) := fun x hx => hfront x (by simp [hx])
    have hlen : offset + 2 + front.length = offset + (high :: low :: front).length := by
      simp only [List.length_cons]
      omega
    rw [List.cons_append, List.cons_append, decodeFrom, hv, hw, ih (offset + 2) heven' hfront', hlen]
    rfl

theorem IsDigit.lt {c : Char} (hc : IsDigit c) : c.toNat < 128 := by
  simp only [IsDigit, Char.le_def, UInt32.le_iff_toNat_le] at hc
  change c.val.toNat < 128
  have h9 : '9'.val.toNat = 57 := rfl
  have hf : 'f'.val.toNat = 102 := rfl
  have hF : 'F'.val.toNat = 70 := rfl
  omega

/-- What holds of every ASCII character holds of every character that is one. -/
theorem of_ascii {P : Char → Prop} (h : ∀ n < 128, P (.ofNat n)) {c : Char} (hc : c.toNat < 128) :
    P c := by
  have hn := h c.toNat hc
  rwa [Char.ofNat_toNat] at hn

/-- A digit has one value in either case. -/
theorem IsDigit.exists_value {c : Char} (hc : IsDigit c) :
    ∃ v < 16, digitValue? (.ofNat c.toNat) = some (.ofNat v) ∧ c.toLower = digit v :=
  of_ascii (P := fun c => IsDigit c →
    ∃ v < 16, digitValue? (.ofNat c.toNat) = some (.ofNat v) ∧ c.toLower = digit v)
    (by decide +kernel) hc.lt hc

theorem lt_of_toLower {c : Char} (h : c.toLower.toNat < 128) : c.toNat < 128 := by
  rw [Char.toLower] at h
  split at h
  · next hupper =>
    have hle := UInt32.le_iff_toNat_le.mp hupper.2
    have hZ : 'Z'.val.toNat = 90 := rfl
    change c.val.toNat < 128
    omega
  · exact h

theorem isDigit_of_toLower {c : Char} {v : Nat} (hv : v < 16) (h : c.toLower = digit v) :
    IsDigit c := by
  have hdigit : ∀ v < 16, (digit v).toNat < 128 := by decide
  have hascii : c.toNat < 128 := lt_of_toLower (h ▸ hdigit v hv)
  exact of_ascii (P := fun c => ∀ v < 16, c.toLower = digit v → IsDigit c)
    (by decide +kernel) hascii v hv h

theorem utf8EncodeChar_of_lt {c : Char} (hc : c.toNat < 128) :
    String.utf8EncodeChar c = [.ofNat c.toNat] := by
  have hle : c.val.toNat ≤ 127 := Nat.le_of_lt_succ hc
  simp only [String.utf8EncodeChar, if_pos hle]
  rfl

theorem utf8_of_digits {s : String} (hs : ∀ c ∈ s.toList, IsDigit c) :
    utf8 s = s.toList.map fun c => .ofNat c.toNat := by
  unfold utf8
  generalize s.toList = cs at hs
  induction cs with
  | nil => rfl
  | cons c cs ih =>
    have hc := utf8EncodeChar_of_lt (hs c (by simp)).lt
    have hcs := ih fun x hx => hs x (by simp [hx])
    rw [List.flatMap_cons, hc, hcs]
    rfl

theorem ofNat_toNat_of_lt {c : Char} (hc : c.toNat < 128) :
    Char.ofNat (UInt8.ofNat c.toNat).toNat = c := by
  rw [UInt8.toNat_ofNat_of_lt' (Nat.lt_trans hc (by decide)), Char.ofNat_toNat]

/-- A character outside ASCII begins with a byte that is no digit. -/
theorem exists_not_isDigit {c : Char} (hc : 128 ≤ c.toNat) :
    ∃ b ∈ String.utf8EncodeChar c, ¬ IsDigit (.ofNat b.toNat) := by
  have hhigh : ∀ n < 256, 192 ≤ n → ¬ IsDigit (.ofNat n) := by decide +kernel
  have hfirst : ∃ n, 192 ≤ n ∧ n < 256 ∧ UInt8.ofNat n ∈ String.utf8EncodeChar c := by
    simp only [String.utf8EncodeChar, if_neg (Nat.not_le_of_lt hc : ¬ c.val.toNat ≤ 127)]
    split_ifs
    · exact ⟨c.val.toNat / 64 % 32 + 192, by omega, by omega, List.mem_cons_self⟩
    · exact ⟨c.val.toNat / 4096 % 16 + 224, by omega, by omega, List.mem_cons_self⟩
    · exact ⟨c.val.toNat / 262144 % 8 + 240, by omega, by omega, List.mem_cons_self⟩
  obtain ⟨n, hle, hlt, hn⟩ := hfirst
  refine ⟨_, hn, ?_⟩
  rw [UInt8.toNat_ofNat_of_lt' hlt]
  exact hhigh n hlt hle

/-- Digits are ASCII, so that it makes no difference whether bytes or characters are looked at. -/
theorem forall_utf8_isDigit_iff {s : String} :
    (∀ b ∈ utf8 s, IsDigit (.ofNat b.toNat)) ↔ ∀ c ∈ s.toList, IsDigit c := by
  constructor
  · intro h c hc
    have hbytes : ∀ b ∈ String.utf8EncodeChar c, IsDigit (.ofNat b.toNat) := by
      intro b hb
      exact h b (List.mem_flatMap.mpr ⟨c, hc, hb⟩)
    rcases Nat.lt_or_ge c.toNat 128 with hlt | hge
    · rw [utf8EncodeChar_of_lt hlt] at hbytes
      have hself := hbytes _ List.mem_cons_self
      rwa [ofNat_toNat_of_lt hlt] at hself
    · obtain ⟨b, hb, hno⟩ := exists_not_isDigit hge
      exact absurd (hbytes b hb) hno
  · intro h b hb
    rw [utf8_of_digits h] at hb
    obtain ⟨c, hc, rfl⟩ := List.mem_map.mp hb
    rw [ofNat_toNat_of_lt (h c hc).lt]
    exact h c hc

/-- Digits in either case are read as the bytes whose digits they are in lower case. -/
theorem exists_decodeFrom (offset : Nat) {cs : List Char} (hcs : ∀ c ∈ cs, IsDigit c)
    (heven : Even cs.length) : ∃ bytes,
      decodeFrom offset (cs.map fun c => .ofNat c.toNat) = .ok bytes ∧
        cs.map Char.toLower = bytes.flatMap encodeByte := by
  induction cs using List.twoStepInduction generalizing offset with
  | nil => exact ⟨[], rfl, rfl⟩
  | singleton c => simp at heven
  | cons_cons high low cs ih _ =>
    obtain ⟨v, hv, hhigh, hhigh'⟩ := (hcs high (by simp)).exists_value
    obtain ⟨w, hw, hlow, hlow'⟩ := (hcs low (by simp)).exists_value
    have heven' : Even cs.length := by
      simpa [Nat.even_add_one, Nat.not_even_iff_odd] using heven
    obtain ⟨bytes, hbytes, hlower⟩ := ih (offset + 2) (fun c hc => hcs c (by simp [hc])) heven'
    have hbyte : encodeByte (16 * .ofNat v + .ofNat w) = [digit v, digit w] := by
      have hsum : (16 * UInt8.ofNat v + UInt8.ofNat w).toNat = 16 * v + w := by
        simp
        omega
      rw [encodeByte, hsum]
      congr 2
      · omega
      · congr 1
        omega
    refine ⟨(16 * .ofNat v + .ofNat w) :: bytes, ?_, ?_⟩
    · rw [List.map_cons, List.map_cons, decodeFrom, digitAt, hhigh, digitAt, hlow, hbytes]
      rfl
    · rw [List.map_cons, List.map_cons, hhigh', hlow', hlower, List.flatMap_cons, hbyte]
      rfl

theorem length_utf8_of_digits {s : String} (hs : ∀ c ∈ s.toList, IsDigit c) :
    (utf8 s).length = s.length := by
  rw [utf8_of_digits hs, List.length_map, String.length_toList]

theorem toLower_eq_encode_iff {s : String} {bytes : List UInt8} :
    s.toLower = encode bytes ↔ s.toList.map Char.toLower = bytes.flatMap encodeByte := by
  rw [← String.toList_inj, String.toLower, String.toList_map, encode, String.toList_ofList]

/-- The digits that are written for bytes, in either case. -/
theorem digits_of_toLower_eq {s : String} {bytes : List UInt8} (h : s.toLower = encode bytes) :
    (∀ c ∈ s.toList, IsDigit c) ∧ s.length = 2 * bytes.length := by
  have hlower := toLower_eq_encode_iff.mp h
  constructor
  · intro c hc
    have hmem : c.toLower ∈ bytes.flatMap encodeByte := hlower ▸ List.mem_map_of_mem hc
    obtain ⟨b, -, hb⟩ := List.mem_flatMap.mp hmem
    have hlt : b.toNat < 256 := b.toNat_lt
    simp only [encodeByte, List.mem_cons, List.not_mem_nil, or_false] at hb
    rcases hb with hb | hb
    · exact isDigit_of_toLower (by omega) hb
    · exact isDigit_of_toLower (by omega) hb
  · have hlen := congrArg List.length hlower
    rw [List.length_map, String.length_toList] at hlen
    simpa [encodeByte, List.map_const', Nat.mul_comm] using hlen

theorem exists_decode {s : String} (hs : ∀ c ∈ s.toList, IsDigit c) (heven : Even s.length) :
    ∃ bytes, decode s = .ok bytes ∧ s.toLower = encode bytes := by
  have heven' : Even s.toList.length := by rwa [String.length_toList]
  obtain ⟨bytes, hbytes, hlower⟩ := exists_decodeFrom 0 hs heven'
  have hparity : ¬ (utf8 s).length % 2 = 1 := by
    rw [length_utf8_of_digits hs]
    exact Nat.not_odd_iff_even.mpr heven ∘ Nat.odd_iff.mpr
  refine ⟨bytes, ?_, toLower_eq_encode_iff.mpr hlower⟩
  rw [decode, if_neg hparity, utf8_of_digits hs, hbytes]

theorem decode_of_odd {s : String} (h : Odd (utf8 s).length) : decode s = .error .oddLength := by
  rw [decode, if_pos (Nat.odd_iff.mp h)]

theorem decode_of_not_isDigit {s : String} {front rest : List UInt8} {b : UInt8}
    (heven : Even (utf8 s).length) (hs : utf8 s = front ++ b :: rest)
    (hfront : ∀ x ∈ front, IsDigit (.ofNat x.toNat)) (hb : ¬ IsDigit (.ofNat b.toNat)) :
    decode s = .error (.invalidCharacter b front.length) := by
  have hparity : ¬ (utf8 s).length % 2 = 1 := Nat.not_odd_iff_even.mpr heven ∘ Nat.odd_iff.mpr
  rw [decode, if_neg hparity, hs]
  rw [hs] at heven
  rw [decodeFrom_of_not_isDigit 0 heven hfront hb, Nat.zero_add]

/-- What stands in a text: an odd number of bytes, a first byte that is no digit, or digits. -/
theorem odd_or_not_isDigit_or_digits (s : String) : Odd (utf8 s).length ∨ Even (utf8 s).length ∧
    ((∃ front b rest, utf8 s = front ++ b :: rest ∧ (∀ x ∈ front, IsDigit (.ofNat x.toNat)) ∧
      ¬ IsDigit (.ofNat b.toNat)) ∨ ∀ c ∈ s.toList, IsDigit c) := by
  refine (Nat.even_or_odd (utf8 s).length).symm.imp_right fun heven => ⟨heven, ?_⟩
  cases hfind : (utf8 s).find? fun b => ¬ IsDigit (.ofNat b.toNat) with
  | none =>
    right
    rw [← forall_utf8_isDigit_iff]
    simpa using List.find?_eq_none.mp hfind
  | some b =>
    left
    obtain ⟨hb, front, rest, hs, hfront⟩ := List.find?_eq_some_iff_append.mp hfind
    exact ⟨front, b, rest, hs, by simpa using hfront, by simpa using hb⟩

/-- A text is read as the bytes that it spells in either case. -/
theorem decode_eq_ok_iff {s : String} {bytes : List UInt8} :
    decode s = .ok bytes ↔ s.toLower = encode bytes := by
  constructor
  · intro h
    rcases odd_or_not_isDigit_or_digits s with hodd | ⟨heven, ⟨_, _, _, hs, hfront, hb⟩ | hdigits⟩
    · cases h.symm.trans (decode_of_odd hodd)
    · cases h.symm.trans (decode_of_not_isDigit heven hs hfront hb)
    · rw [length_utf8_of_digits hdigits] at heven
      obtain ⟨bytes', hdecode, hlower⟩ := exists_decode hdigits heven
      obtain rfl := Except.ok.inj (h.symm.trans hdecode)
      exact hlower
  · intro h
    obtain ⟨hdigits, hlen⟩ := digits_of_toLower_eq h
    obtain ⟨bytes', hdecode, hlower⟩ := exists_decode hdigits (hlen ▸ even_two_mul _)
    have hsame : decode (encode bytes) = decode (encode bytes') := by rw [← h, hlower]
    rw [decode_encode, decode_encode] at hsame
    rw [hdecode, hsame]

end Hex

namespace Hash256

/-- Why a text is not read as a hash. -/
inductive Refusal (s : String) : FormatError → Prop
  | oddLength (h : Odd (Hex.utf8 s).length) : Refusal s (.invalidHex "Odd number of digits")
  | invalidCharacter {front rest : List UInt8} {b : UInt8} (heven : Even (Hex.utf8 s).length)
      (hs : Hex.utf8 s = front ++ b :: rest) (hfront : ∀ x ∈ front, Hex.IsDigit (.ofNat x.toNat))
      (hb : ¬ Hex.IsDigit (.ofNat b.toNat)) : Refusal s (.invalidHex
        s!"Invalid character {Text.quoteChar (.ofNat b.toNat)} at position {front.length}")
  | wrongLength (heven : Even (Hex.utf8 s).length) (hdigits : ∀ c ∈ s.toList, Hex.IsDigit c)
      (hlen : s.length ≠ 64) : Refusal s (.invalidHex s!"hash must be 32 bytes, got {s.length / 2}")

theorem ofBytes?_eq_some_iff {bytes : List UInt8} {h : Hash256} :
    ofBytes? bytes = some h ↔ bytes = h.bytes := by
  unfold ofBytes?
  split_ifs with hlen
  · rw [Option.some.injEq, Hash256.ext_iff]
  · have hne : bytes ≠ h.bytes := by
      rintro rfl
      exact hlen h.length_bytes
    simp [hne]

theorem ofDisplay_eq_ok_iff {s : String} {h : Hash256} :
    ofDisplay s = .ok h ↔ s.toLower = h.display := by
  rw [display, ← Hex.decode_eq_ok_iff, ofDisplay]
  cases Hex.decode s with
  | error e => simp
  | ok bytes =>
    have hreverse : bytes = h.bytes.reverse ↔ ofBytes? bytes.reverse = some h := by
      rw [ofBytes?_eq_some_iff, ← List.reverse_eq_iff]
    rw [Except.ok.injEq, hreverse]
    cases hopt : ofBytes? bytes.reverse <;> simp [hopt]

theorem Refusal.ofDisplay_eq {s : String} {e : FormatError} (h : Refusal s e) :
    ofDisplay s = .error e := by
  cases h with
  | oddLength h =>
    rw [ofDisplay, Hex.decode_of_odd h]
    rfl
  | invalidCharacter heven hs hfront hb =>
    rw [ofDisplay, Hex.decode_of_not_isDigit heven hs hfront hb]
    rfl
  | wrongLength heven hdigits hlen =>
    rw [Hex.length_utf8_of_digits hdigits] at heven
    obtain ⟨bytes, hdecode, hlower⟩ := Hex.exists_decode hdigits heven
    obtain ⟨-, hbytes⟩ := Hex.digits_of_toLower_eq hlower
    have hne : bytes.length ≠ 32 := by omega
    have hhalf : s.length / 2 = bytes.length := by omega
    rw [ofDisplay, hdecode, hhalf]
    simp [ofBytes?, hne]

theorem ofDisplay_eq_ok_or_refusal (s : String) :
    (∃ h, ofDisplay s = .ok h) ∨ ∃ e, Refusal s e := by
  rcases Hex.odd_or_not_isDigit_or_digits s with hodd | ⟨heven, ⟨_, _, _, hs, hfront, hb⟩ | hdigits⟩
  · exact .inr ⟨_, .oddLength hodd⟩
  · exact .inr ⟨_, .invalidCharacter heven hs hfront hb⟩
  · by_cases hlen : s.length = 64
    · obtain ⟨bytes, -, hlower⟩ := Hex.exists_decode hdigits (hlen ▸ by decide)
      obtain ⟨-, hbytes⟩ := Hex.digits_of_toLower_eq hlower
      have hwidth : bytes.reverse.length = 32 := by
        rw [List.length_reverse]
        omega
      refine .inl ⟨⟨bytes.reverse, hwidth⟩, ofDisplay_eq_ok_iff.mpr ?_⟩
      rw [display, List.reverse_reverse, hlower]
    · exact .inr ⟨_, .wrongLength heven hdigits hlen⟩

/-- A text is read as a hash if and only if it consists of 64 digits that are those of the hash when
they are put into lower case. Any other text is refused for the first of three reasons that applies. -/
theorem ofDisplay_exact (s : String) :
    (∀ h, ofDisplay s = .ok h ↔
      s.length = 64 ∧ (∀ c ∈ s.toList, Hex.IsDigit c) ∧ s.toLower = h.display) ∧
    ∀ e, ofDisplay s = .error e ↔ Refusal s e := by
  constructor
  · intro h
    rw [ofDisplay_eq_ok_iff]
    constructor
    · intro hs
      obtain ⟨hdigits, hlen⟩ := Hex.digits_of_toLower_eq hs
      rw [List.length_reverse, h.length_bytes] at hlen
      exact ⟨hlen, hdigits, hs⟩
    · intro hs
      exact hs.2.2
  · intro e
    constructor
    · intro he
      rcases ofDisplay_eq_ok_or_refusal s with ⟨h, hok⟩ | ⟨e', hr⟩
      · cases he.symm.trans hok
      · obtain rfl := Except.error.inj (he.symm.trans hr.ofDisplay_eq)
        exact hr
    · intro hr
      exact hr.ofDisplay_eq

end Hash256

end MergedMining
