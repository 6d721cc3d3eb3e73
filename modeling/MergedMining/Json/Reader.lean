import MergedMining.Json.Basic

/-! Reading JSON text. -/
namespace MergedMining.Json

def skipBlank (cs : List Char) : List Char :=
  cs.dropWhile fun c => c = ' ' || c = '\t' || c = '\n' || c = '\r'

def naturalOf (digits : List Char) : Nat := digits.foldl (fun n c => 10 * n + (c.toNat - 48)) 0

/-- Appends digits to a number up to the first one with which 64 bits would not hold it. -/
def appendDigits (n : Nat) : List Char → Nat × List Char
  | [] => (n, [])
  | c :: rest =>
    let longer := 10 * n + (c.toNat - 48)
    if longer < UInt64.size then appendDigits longer rest else (n, c :: rest)

/-- The value of a number with a whole part, a fraction and a power of ten: as many digits of either
part as 64 bits hold are rounded first, and then scaled by a rounded power of ten. Nothing if that is
too large. -/
def floatOf? (whole fraction : List Char) (power : Int) : Option Decimal.Binary64 := do
  let (leading, unreadWhole) := appendDigits 0 whole
  let (leading, unreadFraction) := appendDigits leading fraction
  let power := power + unreadWhole.length - (fraction.length - unreadFraction.length : Nat)
  let x ← Decimal.Binary64.ofQuotient? leading 1
  if leading = 0 then return x
  else if power < 0 then x.shrink? (-power).toNat
  else x.mul? (← Decimal.Binary64.powerOfTen? power.toNat)

def digits? (cs : List Char) : Option (List Char × List Char) :=
  let ds := cs.takeWhile Char.isDigit
  if ds.isEmpty then none else some (ds, cs.dropWhile Char.isDigit)

/-- The digits after a point, if there is one. -/
def fraction? : List Char → Option (List Char × List Char)
  | '.' :: rest => digits? rest
  | rest => some ([], rest)

/-- The exponent, if there is one. -/
def exponent? : List Char → Option (Option Int × List Char)
  | c :: rest =>
    if c = 'e' || c = 'E' then do
      let (negative, rest) := match rest with
        | '-' :: rest => (true, rest)
        | '+' :: rest => (false, rest)
        | rest => (false, rest)
      let (ds, rest) ← digits? rest
      let size : Int := naturalOf ds
      return (some (if negative then -size else size), rest)
    else some (none, c :: rest)
  | [] => some (none, [])

/-- A negative zero is no integer. -/
def integer? (negative : Bool) (n : Nat) : Option Int :=
  if negative then if 0 < n ∧ n ≤ 0x8000000000000000 then some (-n) else none
  else if n < UInt64.size then some n else none

def number? (cs : List Char) : Option (Json × List Char) := do
  let (negative, cs) := match cs with
    | '-' :: rest => (true, rest)
    | rest => (false, rest)
  let (whole, rest) ← digits? cs
  if whole.head? = some '0' && 1 < whole.length then none
  else
    let (fraction, rest) ← fraction? rest
    let (power, rest) ← exponent? rest
    let float := do
      let magnitude ← floatOf? whole fraction (power.getD 0)
      return (Json.float negative magnitude, rest)
    if fraction.isEmpty && power.isNone then
      match integer? negative (naturalOf whole) with
      | some n => some (int n, rest)
      | none => float
    else float

def hexDigit? (c : Char) : Option Nat := (Hex.digitValue? (UInt8.ofNat c.toNat)).bind fun value =>
  if c.toNat < 128 then some value.toNat else none

def codeUnit? (a b c d : Char) : Option Nat := do
  return 4096 * (← hexDigit? a) + 256 * (← hexDigit? b) + 16 * (← hexDigit? c) + (← hexDigit? d)

def unescape? (c : Char) : Option Char :=
  if c = '"' || c = '\\' || c = '/' then some c
  else if c = 'b' then some '\x08'
  else if c = 'f' then some '\x0c'
  else if c = 'n' then some '\n'
  else if c = 'r' then some '\r'
  else if c = 't' then some '\t'
  else none

/-- The character of a code unit, or of a pair of surrogates, and what follows it. -/
def escapedUnit? (unit : Nat) (rest : List Char) : Option (Char × List Char) :=
  if 0xd800 ≤ unit ∧ unit < 0xdc00 then
    match rest with
    | '\\' :: 'u' :: a :: b :: c :: d :: rest => do
      let low ← codeUnit? a b c d
      if 0xdc00 ≤ low ∧ low < 0xe000 then
        some (Char.ofNat (0x10000 + 1024 * (unit - 0xd800) + (low - 0xdc00)), rest)
      else none
    | _ => none
  else if 0xdc00 ≤ unit ∧ unit < 0xe000 then none
  else some (Char.ofNat unit, rest)

/-- The characters up to the closing quote; `read` holds those before, the last one first, and `fuel`
bounds the number of characters. -/
def stringBody? : (fuel : Nat) → (read : List Char) → List Char → Option (String × List Char)
  | 0, _, _ => none
  | _ + 1, read, '"' :: rest => some (String.ofList read.reverse, rest)
  | fuel + 1, read, '\\' :: 'u' :: a :: b :: c :: d :: rest => do
    let (char, rest) ← escapedUnit? (← codeUnit? a b c d) rest
    stringBody? fuel (char :: read) rest
  | fuel + 1, read, '\\' :: c :: rest => do stringBody? fuel ((← unescape? c) :: read) rest
  | fuel + 1, read, c :: rest => if c.toNat < 0x20 then none else stringBody? fuel (c :: read) rest
  | _ + 1, _, [] => none

def string? (cs : List Char) : Option (String × List Char) :=
  match cs with
  | '"' :: rest => stringBody? (rest.length + 1) [] rest
  | _ => none

/-- Replaces an earlier value of the same key. -/
def insertField (fields : List (String × Json)) (key : String) (value : Json) :
    List (String × Json) :=
  fields.filter (·.1 != key) ++ [(key, value)]

mutual

def value? : (fuel : Nat) → List Char → Option (Json × List Char)
  | 0, _ => none
  | fuel + 1, cs =>
    match skipBlank cs with
    | 'n' :: 'u' :: 'l' :: 'l' :: rest => some (null, rest)
    | 't' :: 'r' :: 'u' :: 'e' :: rest => some (bool true, rest)
    | 'f' :: 'a' :: 'l' :: 's' :: 'e' :: rest => some (bool false, rest)
    | '"' :: rest => (string? ('"' :: rest)).map fun (s, rest) => (string s, rest)
    | '[' :: rest =>
      match skipBlank rest with
      | ']' :: rest => some (array [], rest)
      | _ => items? fuel [] rest
    | '\x7b' :: rest =>
      match skipBlank rest with
      | '\x7d' :: rest => some (object [], rest)
      | _ => fields? fuel [] rest
    | rest => number? rest

/-- The items up to the closing bracket; `read` holds those before, the last one first. -/
def items? : (fuel : Nat) → (read : List Json) → List Char → Option (Json × List Char)
  | 0, _, _ => none
  | fuel + 1, read, cs => do
    let (item, rest) ← value? fuel cs
    match skipBlank rest with
    | ',' :: rest => items? fuel (item :: read) rest
    | ']' :: rest => some (array (item :: read).reverse, rest)
    | _ => none

def fields? : (fuel : Nat) → (read : List (String × Json)) → List Char → Option (Json × List Char)
  | 0, _, _ => none
  | fuel + 1, read, cs => do
    let (key, rest) ← string? (skipBlank cs)
    match skipBlank rest with
    | ':' :: rest =>
      let (value, rest) ← value? fuel rest
      match skipBlank rest with
      | ',' :: rest => fields? fuel (insertField read key value) rest
      | '\x7d' :: rest => some (object (insertField read key value), rest)
      | _ => none
    | _ => none

end

/-- Every character takes part in at most two nested steps. -/
def parse? (s : String) : Option Json := do
  let cs := s.toList
  let (value, rest) ← value? (2 * cs.length + 2) cs
  if (skipBlank rest).isEmpty then some value else none

end MergedMining.Json
