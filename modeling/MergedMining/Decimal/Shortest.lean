import MergedMining.Decimal.Binary64

/-! The fewest decimal digits that read back as a given number of double precision. -/
namespace MergedMining.Decimal

/-- The number is `digits · 10 ^ exponent`. -/
structure Digits where
  digits : Nat
  exponent : Int
deriving DecidableEq, Repr

/-- Whether `candidate · 10 ^ power` rounds to `x`. The numbers that round to `x` reach half way to its
neighbours, and the ends belong to `x` when its mantissa is even. -/
def Binary64.admits (x : Binary64) (candidate : Nat) (power : Int) : Bool :=
  let nearer := x.mantissa == leastFull && -1074 < x.exponent
  let (c, cd) := scaled candidate 1 10 power
  let (lo, ld) := scaled (4 * x.mantissa - if nearer then 1 else 2) 4 2 x.exponent
  let (hi, hd) := scaled (4 * x.mantissa + 2) 4 2 x.exponent
  if x.mantissa % 2 = 0 then lo * cd ≤ c * ld && c * hd ≤ hi * cd
  else lo * cd < c * ld && c * hd < hi * cd

/-- Of the two neighbours of `x` on the grid of multiples of `10 ^ power`, the nearer one that rounds
to `x`. -/
def Binary64.onGrid? (x : Binary64) (power : Int) : Option Digits :=
  let (n, d) := scaled x.mantissa 1 2 x.exponent
  let (n, d) := scaled n d 10 (-power)
  let below := n / d
  let nearest := roundHalfEven n d
  [nearest, below, below + 1].find? (x.admits · power) |>.map (⟨·, power⟩)

/-- The exponent of the leading decimal digit of a positive quotient that is at least `10 ^ -400`. -/
def leadingPower (num den : Nat) : Int :=
  if den ≤ num then (Nat.toDigits 10 (num / den)).length - 1
  else match (List.range 400).find? fun k => den ≤ num * Nat.pow 10 k with
    | some k => -k
    | none => -400

/-- Moves trailing zeros into the exponent; `fuel` bounds their number. -/
def Digits.strip : (fuel : Nat) → Digits → Digits
  | 0, x => x
  | fuel + 1, x =>
    if x.digits % 10 = 0 && x.digits != 0 then strip fuel ⟨x.digits / 10, x.exponent + 1⟩ else x

def Binary64.shortest (x : Binary64) : Digits :=
  let (n, d) := scaled x.mantissa 1 2 x.exponent
  let leading := leadingPower n d
  match (List.range 18).findSome? fun (k : Nat) => x.onGrid? (leading - k) with
  | some found => found.strip 18
  | none => ⟨0, 0⟩

/-- Numbers with a leading power of ten from `-5` to `15` are written positionally, always with a
point; all others with an exponent, which always has a sign. -/
def Digits.text (x : Digits) : String :=
  let ds := Nat.toDigits 10 x.digits
  let point : Int := ds.length + x.exponent
  let zeros (k : Int) := List.replicate k.toNat '0'
  String.ofList <|
    if 0 ≤ x.exponent && point ≤ 16 then ds ++ zeros x.exponent ++ ['.', '0']
    else if 0 < point && point ≤ 16 then ds.take point.toNat ++ '.' :: ds.drop point.toNat
    else if -5 < point && point ≤ 0 then '0' :: '.' :: zeros (-point) ++ ds
    else
      let mantissa := match ds with
        | d :: e :: rest => d :: '.' :: e :: rest
        | short => short
      let power := point - 1
      mantissa ++ 'e' :: (if power < 0 then '-' else '+') :: (toString power.natAbs).toList

def Binary64.text (x : Binary64) : String :=
  if x.mantissa = 0 then "0.0" else x.shortest.text

end MergedMining.Decimal
