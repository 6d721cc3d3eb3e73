import MergedMining.Json.Record

/-! The JSON forms of integers, bytes and lists. -/
namespace MergedMining

namespace Json

/-- An integer from `low` to `high`, both included. -/
def readInt (expected : String) (low high : Int) : Json → Except Error Int
  | int n => if low ≤ n ∧ n ≤ high then .ok n else .error (.integerOutOfRange n expected)
  | j => .error (.invalidType j expected)

def readString : Json → Except Error String
  | string s => .ok s
  | j => .error (.invalidType j "a string")

def readHex (j : Json) : Except Error (List UInt8) := do
  match Hex.decode (← readString j) with
  | .ok bytes => .ok bytes
  | .error e => .error (.hex e)

def ofHex (bytes : List UInt8) : Json := string (Hex.encode bytes)

end Json

instance : ToJson UInt8 := ⟨fun n => .int n.toNat⟩
instance : ToJson UInt32 := ⟨fun n => .int n.toNat⟩
instance : ToJson UInt64 := ⟨fun n => .int n.toNat⟩
instance : ToJson Int32 := ⟨fun n => .int n.toInt⟩

instance : FromJson UInt8 :=
  ⟨fun j => return UInt8.ofNat (← Json.readInt "u8" 0 0xff j).toNat⟩

instance : FromJson UInt32 :=
  ⟨fun j => return UInt32.ofNat (← Json.readInt "u32" 0 0xffffffff j).toNat⟩

instance : FromJson UInt64 :=
  ⟨fun j => return UInt64.ofNat (← Json.readInt "u64" 0 0xffffffffffffffff j).toNat⟩

instance : FromJson Int32 :=
  ⟨fun j => return Int32.ofInt (← Json.readInt "i32" (-0x80000000) 0x7fffffff j)⟩

instance {α : Type} [ToJson α] : ToJson (List α) := ⟨fun xs => .array (xs.map toJson)⟩

instance {α : Type} [FromJson α] : FromJson (List α) where
  fromJson
    | .array items => items.mapM fromJson
    | j => .error (.invalidType j "a sequence")

end MergedMining
