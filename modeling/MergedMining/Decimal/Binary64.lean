/-! Non-negative numbers of double precision and their correctly rounded arithmetic. -/
namespace MergedMining.Decimal

/-- `mantissa · 2 ^ exponent`. Values built here have a mantissa below `2 ^ 53` and an exponent of at
least `-1074`, and the mantissa is at least `2 ^ 52` unless the exponent is the least. -/
structure Binary64 where
  mantissa : Nat
  exponent : Int
deriving DecidableEq, Repr

/-- The quotient rounded to the nearest integer, a half going to the even neighbour. -/
def roundHalfEven (num den : Nat) : Nat :=
  let q := num / den
  let twice := 2 * (num % den)
  if twice < den then q
  else if den < twice then q + 1
  else if q % 2 = 0 then q else q + 1

/-- `num · base ^ power` as a quotient of natural numbers. -/
def scaled (num den base : Nat) (power : Int) : Nat × Nat :=
  (num * Nat.pow base power.toNat, den * Nat.pow base (-power).toNat)

namespace Binary64

def zero : Binary64 := ⟨0, -1074⟩

/-- The least mantissa of 53 bits. -/
def leastFull : Nat := 0x10000000000000

/-- The exponent at which the quotient has 53 bits before the point, but no less than `-1074`. -/
def exponentFor (num den : Nat) : Int :=
  let estimate : Int := (num.log2 : Int) - den.log2 - 53
  let (n, d) := scaled num den 2 (-estimate)
  max (if n < 2 * leastFull * d then estimate else estimate + 1) (-1074)

/-- The nearest value, or nothing when it is too large. -/
def ofQuotient? (num den : Nat) : Option Binary64 :=
  if num = 0 then some zero
  else
    let q := exponentFor num den
    let (n, d) := scaled num den 2 (-q)
    let m := roundHalfEven n d
    let x : Binary64 := if m = 2 * leastFull then ⟨leastFull, q + 1⟩ else ⟨m, q⟩
    if 971 < x.exponent then none else some x

def mul? (x y : Binary64) : Option Binary64 :=
  let (n, d) := scaled (x.mantissa * y.mantissa) 1 2 (x.exponent + y.exponent)
  ofQuotient? n d

def div? (x y : Binary64) : Option Binary64 :=
  let (n, d) := scaled x.mantissa y.mantissa 2 (x.exponent - y.exponent)
  ofQuotient? n d

def powerOfTen? (k : Nat) : Option Binary64 := if k ≤ 308 then ofQuotient? (Nat.pow 10 k) 1 else none

/-- Division by `10 ^ k`, in steps of `10 ^ 308` while `k` is larger. -/
def shrink? (x : Binary64) (k : Nat) : Option Binary64 :=
  if k ≤ 308 then do x.div? (← powerOfTen? k)
  else if x.mantissa = 0 then some x
  else do
    let y ← x.div? (← powerOfTen? 308)
    y.shrink? (k - 308)
termination_by k

end Binary64

end MergedMining.Decimal
