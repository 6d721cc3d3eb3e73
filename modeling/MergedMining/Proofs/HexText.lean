import MergedMining.Hash.Hash256

/-! Hexadecimal text is read back as the bytes that it was written from, and a hash as it is displayed is
read back as itself. -/
namespace MergedMining

namespace Hex

/-- The digits of a byte as bytes of text. -/
def digitBytes (b : UInt8) : List UInt8 :=
  [.ofNat (digit (b.toNat / 16)).toNat, .ofNat (digit (b.toNat % 16)).toNat]

theorem utf8EncodeChar_digit : ∀ n < 16,
    String.utf8EncodeChar (digit n) = [.ofNat (digit n).toNat] := by
  decide

theorem digitAt_digit (offset : Nat) {n : Nat} (hn : n < 16) :
    digitAt offset (.ofNat (digit n).toNat) = .ok (.ofNat n) := by
  have h : ∀ n < 16, digitValue? (.ofNat (digit n).toNat) = some (.ofNat n) := by decide
  rw [digitAt, h n hn]

theorem utf8_encode (bytes : List UInt8) : utf8 (encode bytes) = bytes.flatMap digitBytes := by
  rw [utf8, encode, String.toList_ofList, List.flatMap_assoc]
  congr 1
  funext b
  have hb : b.toNat < 256 := b.toNat_lt
  have hhigh := utf8EncodeChar_digit (b.toNat / 16) (by omega)
  have hlow := utf8EncodeChar_digit (b.toNat % 16) (by omega)
  simp [encodeByte, digitBytes, hhigh, hlow]

theorem length_utf8_encode (bytes : List UInt8) : (utf8 (encode bytes)).length = 2 * bytes.length := by
  simp [utf8_encode, digitBytes, List.map_const', Nat.mul_comm]

theorem decodeFrom_digitBytes (offset : Nat) (bytes : List UInt8) :
    decodeFrom offset (bytes.flatMap digitBytes) = .ok bytes := by
  induction bytes generalizing offset with
  | nil => rfl
  | cons b bytes ih =>
    have hb : b.toNat < 256 := b.toNat_lt
    have hhigh := digitAt_digit offset (n := b.toNat / 16) (by omega)
    have hlow := digitAt_digit (offset + 1) (n := b.toNat % 16) (by omega)
    have hsum : 16 * UInt8.ofNat (b.toNat / 16) + UInt8.ofNat (b.toNat % 16) = b := by
      apply UInt8.toNat_inj.mp
      simp
      omega
    have hcons : (b :: bytes).flatMap digitBytes = .ofNat (digit (b.toNat / 16)).toNat ::
        .ofNat (digit (b.toNat % 16)).toNat :: bytes.flatMap digitBytes := rfl
    rw [hcons, decodeFrom, hhigh, hlow, ih]
    exact congrArg (fun x => Except.ok (x :: bytes)) hsum

theorem decode_encode (bytes : List UInt8) : decode (encode bytes) = .ok bytes := by
  have hlen := length_utf8_encode bytes
  have heven : ¬ (utf8 (encode bytes)).length % 2 = 1 := by omega
  rw [decode, if_neg heven, utf8_encode, decodeFrom_digitBytes]

end Hex

theorem Hash256.ofDisplay_display (h : Hash256) : ofDisplay h.display = .ok h := by
  simp [ofDisplay, display, Hex.decode_encode, ofBytes?, h.length_bytes]

end MergedMining
