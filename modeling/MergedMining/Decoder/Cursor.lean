/-! A position in a byte string. -/
namespace MergedMining

/-- `position` bytes have been read and `rest` has not. -/
@[ext] structure Cursor where
  position : Nat
  rest : List UInt8
deriving DecidableEq, Repr

/-- Whether the list has `n` elements, found without walking past them. -/
def hasAtLeast {α : Type} : (n : Nat) → List α → Bool
  | 0, _ => true
  | _ + 1, [] => false
  | n + 1, _ :: xs => hasAtLeast n xs

theorem hasAtLeast_iff {α : Type} {n : Nat} {xs : List α} :
    hasAtLeast n xs = true ↔ n ≤ xs.length := by
  induction n generalizing xs with
  | zero => simp [hasAtLeast]
  | succ n ih => cases xs <;> simp [hasAtLeast, ih]

namespace Cursor

/-- The cursor at an offset of `data`. -/
def ofOffset (data : List UInt8) (position : Nat) : Cursor := ⟨position, data.drop position⟩

def ofBytes (data : List UInt8) : Cursor := ofOffset data 0

def remaining (c : Cursor) : Nat := c.rest.length

theorem remaining_ofOffset (data : List UInt8) (pos : Nat) :
    (ofOffset data pos).remaining = data.length - pos :=
  List.length_drop

def isEmpty (c : Cursor) : Bool := c.rest.isEmpty

def peek (c : Cursor) : Option UInt8 := c.rest.head?

/-- The cursor `n` bytes further on. -/
def advance (c : Cursor) (n : Nat) : Cursor := ⟨c.position + n, c.rest.drop n⟩

end Cursor

end MergedMining
