import MergedMining.Decoder.Cursor
import MergedMining.Decoder.Event
import MergedMining.Hash.Hash256

/-! Decoders read from a cursor. A decoder that fails says where the cursor was left. One that runs
may report events, and every access to the input is kept in order; no decoder can see either. -/
namespace MergedMining

/-- What a decoder does with its input. -/
inductive Access where
  /-- It looks at what remains behind a position. -/
  | look (position : Nat)
  /-- It takes a slice that begins at a position. -/
  | take (position : Nat) (bytes : List UInt8)
deriving DecidableEq, Repr

structure Run (α : Type) where
  result : Except DecodeError α
  cursor : Cursor
  events : List Event
  accesses : List Access

def Decoder (α : Type) := Cursor → Run α

namespace Decoder

variable {α β : Type}

protected def pure (a : α) : Decoder α := fun c => ⟨.ok a, c, [], []⟩

protected def bind (d : Decoder α) (next : α → Decoder β) : Decoder β := fun c =>
  match d c with
  | ⟨.error e, c, events, accesses⟩ => ⟨.error e, c, events, accesses⟩
  | ⟨.ok a, c, events, accesses⟩ =>
    let run := next a c
    ⟨run.result, run.cursor, events ++ run.events, accesses ++ run.accesses⟩

instance : Monad Decoder where
  pure := Decoder.pure
  bind := Decoder.bind

def fail (e : DecodeError) : Decoder α := fun c => ⟨.error e, c, [], []⟩

/-- Fails with the cursor put back to `start`. -/
def failAt (start : Cursor) (e : DecodeError) : Decoder α := fun _ => ⟨.error e, start, [], []⟩

def report (event : Event) : Decoder Unit := fun c => ⟨.ok (), c, [event], []⟩

/-- The cursor itself, which stays where it is and shows what remains. -/
def here : Decoder Cursor := fun c => ⟨.ok c, c, [], [.look c.position]⟩

def mapError (f : DecodeError → DecodeError) (d : Decoder α) : Decoder α := fun c =>
  let run := d c
  { run with result := run.result.mapError f }

/-- The same decoder `n` times in a row. -/
def times : (n : Nat) → Decoder α → Decoder (List α)
  | 0, _ => pure []
  | n + 1, d => do
    let a ← d
    let rest ← times n d
    return a :: rest

/-- Exactly `n` bytes. They are taken, and the cursor moves, only if they are there. -/
def exactly (n : Nat) (field : String) : Decoder { bytes : List UInt8 // bytes.length = n } :=
  fun c =>
    if h : hasAtLeast n c.rest = true then
      let bytes := c.rest.take n
      ⟨.ok ⟨bytes, by
        simpa [bytes, List.length_take] using Nat.min_eq_left (hasAtLeast_iff.mp h)⟩, c.advance n, [],
        [.look c.position, .take c.position bytes]⟩
    else ⟨.error (.truncatedInput field n c.remaining), c, [], [.look c.position]⟩

def bytes (n : Nat) (field : String) : Decoder (List UInt8) := do
  let bs ← exactly n field
  return bs.val

/-- A little-endian number of `width` bytes. -/
def number (width : Nat) (field : String) : Decoder Nat := do
  let bs ← bytes width field
  return LittleEndian.decode bs

def uint8 (field : String) : Decoder UInt8 := return UInt8.ofNat (← number 1 field)

def uint16 (field : String) : Decoder UInt16 := return UInt16.ofNat (← number 2 field)

def uint32 (field : String) : Decoder UInt32 := return UInt32.ofNat (← number 4 field)

def uint64 (field : String) : Decoder UInt64 := return UInt64.ofNat (← number 8 field)

/-- In two's complement. -/
def int32 (field : String) : Decoder Int32 := return (← uint32 field).toInt32

def hash (field : String) : Decoder Hash256 := do
  let bs ← exactly 32 field
  return ⟨bs.val, bs.property⟩

end Decoder

end MergedMining
