import MergedMining.Decimal.Shortest
import MergedMining.Decoder.Error

/-! JSON values, and how they are named in messages. -/
namespace MergedMining

inductive Json where
  | null
  | bool (value : Bool)
  | int (value : Int)
  /-- A number with a point or an exponent, or beyond the integers of 64 bits. -/
  | float (negative : Bool) (magnitude : Decimal.Binary64)
  | string (value : String)
  | array (items : List Json)
  /-- Keys are distinct and stand in the order in which they are written. -/
  | object (fields : List (String × Json))
deriving Repr

namespace Json

instance : Inhabited Json := ⟨null⟩

def field? (j : Json) (key : String) : Option Json :=
  match j with
  | object fields => fields.lookup key
  | _ => none

/-- The sign and digits of a float. -/
def floatText (negative : Bool) (magnitude : Decimal.Binary64) : String :=
  (if negative then "-" else "") ++ magnitude.text

def describe : Json → String
  | null => "null"
  | bool value => s!"boolean `{value}`"
  | int value => s!"integer `{value}`"
  | float negative magnitude => s!"floating point `{floatText negative magnitude}`"
  | string value => s!"string {Text.quoteString value}"
  | array _ => "sequence"
  | object _ => "map"

/-- Why a value does not have the expected form. -/
inductive Error where
  | invalidType (found : Json) (expected : String)
  | integerOutOfRange (value : Int) (expected : String)
  | invalidLength (length : Nat) (expected : String)
  | missingField (name : String)
  | unknownVariant (name : String) (known : List String)
  /-- A choice is given by an object that has no key or several. -/
  | notSingleKey
  | hash (error : FormatError)
  | hex (error : Hex.Error)
deriving Repr

def Error.message : Error → String
  | invalidType found expected => s!"invalid type: {found.describe}, expected {expected}"
  | integerOutOfRange value expected => s!"invalid value: {(int value).describe}, expected {expected}"
  | invalidLength length expected => s!"invalid length {length}, expected {expected}"
  | missingField name => s!"missing field `{name}`"
  | unknownVariant name known =>
    let choices := " or ".intercalate (known.map fun choice => s!"`{choice}`")
    s!"unknown variant `{name}`, expected {choices}"
  | notSingleKey => "invalid value: map, expected map with a single key"
  | hash error => error.message
  | hex error => error.message

end Json

end MergedMining
