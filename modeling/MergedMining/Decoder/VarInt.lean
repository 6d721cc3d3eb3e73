import MergedMining.Decoder.Basic

/-! Integers and counts of variable length. A value has exactly one encoding, the shortest. -/
namespace MergedMining

namespace VarInt

/-- A form with a marker: the width of the number that follows, and the least value allowed there. -/
structure Form where
  width : Nat
  least : UInt64
deriving DecidableEq, Repr

/-- Any other byte is a value by itself. -/
def form? (marker : UInt8) : Option Form :=
  if marker = 0xfd then some ⟨2, 0xfd⟩
  else if marker = 0xfe then some ⟨4, 0x10000⟩
  else if marker = 0xff then some ⟨8, 0x100000000⟩
  else none

/-- Appends the encoding to what is there already. -/
def encodeInto (out : List UInt8) (value : UInt64) : List UInt8 :=
  if value < 0xfd then out ++ [value.toUInt8]
  else if value ≤ 0xffff then out ++ 0xfd :: LittleEndian.encode 2 value.toNat
  else if value ≤ 0xffffffff then out ++ 0xfe :: LittleEndian.encode 4 value.toNat
  else out ++ 0xff :: LittleEndian.encode 8 value.toNat

def encode (value : UInt64) : List UInt8 := encodeInto [] value

theorem encodeInto_eq_append (out : List UInt8) (value : UInt64) :
    encodeInto out value = out ++ encode value := by
  unfold encode encodeInto
  split
  · rfl
  · split
    · rfl
    · split <;> rfl

/-- The count that stands before a list. -/
def encodeLength {α : Type} (xs : List α) : List UInt8 := encode (UInt64.ofNat xs.length)

end VarInt

namespace Decoder

/-- A value that fits a shorter form is refused and leaves the cursor where it was; a number that is
cut short leaves it after the marker. -/
def varInt (field : String) : Decoder UInt64 := do
  let start ← here
  let marker ← uint8 field
  match VarInt.form? marker with
  | none => return marker.toUInt64
  | some form =>
    let value := UInt64.ofNat (← number form.width field)
    if value < form.least then failAt start (.format (.nonCanonicalVarInt marker value))
    else return value

/-- How the count before a list is read: the name of the field, and the least size of an element. -/
abbrev CountReader := String → Nat → Decoder Nat

/-- A product that stops at the largest 64-bit number. -/
def saturatingMul (m n : Nat) : Nat := min (m * n) 0xffffffffffffffff

/-- A count of elements that take at least `least` bytes each, and never less than one. It is refused
when so many cannot follow. -/
def count : CountReader := fun field least => do
  let start ← here
  let n := (← varInt field).toNat
  let needed := saturatingMul n (max least 1)
  let after ← here
  if hasAtLeast needed after.rest then return n
  else failAt start (.truncatedInput field needed after.remaining)

/-- A count that is taken at its word. -/
def plainCount : CountReader := fun field _ => return (← varInt field).toNat

end Decoder

end MergedMining
