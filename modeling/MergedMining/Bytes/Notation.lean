import MergedMining.Text.Conversion

/-! Bytes as numbers, least significant byte first, and as hexadecimal text. -/
namespace MergedMining

namespace LittleEndian

/-- The `width` lowest bytes of `n`; anything above them is dropped. -/
def encode : (width : Nat) → (n : Nat) → List UInt8
  | 0, _ => []
  | width + 1, n => UInt8.ofNat n :: encode width (n / 256)

def decode : List UInt8 → Nat
  | [] => 0
  | b :: bs => b.toNat + 256 * decode bs

def encodeUInt32 (n : UInt32) : List UInt8 := encode 4 n.toNat

def encodeUInt64 (n : UInt64) : List UInt8 := encode 8 n.toNat

/-- In two's complement. -/
def encodeInt32 (n : Int32) : List UInt8 := encodeUInt32 n.toUInt32

@[simp] theorem length_encode (width n : Nat) : (encode width n).length = width := by
  induction width generalizing n with
  | zero => rfl
  | succ width ih => simp [encode, ih]

@[simp] theorem length_encodeUInt32 (n : UInt32) : (encodeUInt32 n).length = 4 :=
  length_encode 4 n.toNat

@[simp] theorem length_encodeInt32 (n : Int32) : (encodeInt32 n).length = 4 :=
  length_encodeUInt32 n.toUInt32

end LittleEndian

namespace Hex

inductive Error where
  | oddLength
  /-- The offending byte of the UTF-8 text and its offset. -/
  | invalidCharacter (byte : UInt8) (offset : Nat)
deriving DecidableEq, Repr

/-- The offending byte is shown as the character with its code point. -/
def Error.message : Error → String
  | .oddLength => "Odd number of digits"
  | .invalidCharacter byte offset =>
    s!"Invalid character {Text.quoteChar (Char.ofNat byte.toNat)} at position {offset}"

def digit (n : Nat) : Char :=
  if n < 10 then Char.ofNat ('0'.toNat + n) else Char.ofNat ('a'.toNat + (n - 10))

def encodeByte (b : UInt8) : List Char := [digit (b.toNat / 16), digit (b.toNat % 16)]

/-- Two lower-case digits a byte. -/
def encode (bytes : List UInt8) : String := String.ofList (bytes.flatMap encodeByte)

def digitValue? (b : UInt8) : Option UInt8 :=
  if 48 ≤ b ∧ b ≤ 57 then some (b - 48)
  else if 97 ≤ b ∧ b ≤ 102 then some (b - 87)
  else if 65 ≤ b ∧ b ≤ 70 then some (b - 55)
  else none

def digitAt (offset : Nat) (b : UInt8) : Except Error UInt8 :=
  match digitValue? b with
  | some value => .ok value
  | none => .error (.invalidCharacter b offset)

/-- Reads the digits pairwise, `offset` being where the first one stands. -/
def decodeFrom (offset : Nat) : List UInt8 → Except Error (List UInt8)
  | high :: low :: rest => do
    let h ← digitAt offset high
    let l ← digitAt (offset + 1) low
    let bytes ← decodeFrom (offset + 2) rest
    return (16 * h + l) :: bytes
  | _ => .ok []

def utf8 (s : String) : List UInt8 := s.toList.flatMap String.utf8EncodeChar

/-- An odd number of bytes is reported before any character that is no digit. -/
def decode (s : String) : Except Error (List UInt8) :=
  let bytes := utf8 s
  if bytes.length % 2 = 1 then .error .oddLength else decodeFrom 0 bytes

end Hex

end MergedMining
