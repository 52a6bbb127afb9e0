import VersionedApi.Decimal.Ratio

/-!
# Doubles

* `Double` : a finite double that is not negative, as an integer times a power of two;
* `Double.nearest?` : the double nearest to a ratio, a half going to the even one;
* `Double.mul?`, `Double.div?` : the exact result, rounded once;
* `Double.ofDecimal?` : the double nearest to `m · 10 ^ e`;
* `Double.scaled?` : `m · 10 ^ e` by way of the doubles nearest to `m` and to the power of ten.

`none` always means that the result lies beyond the greatest double.
-/

namespace VersionedApi

/-- The double `mantissa · 2 ^ exponent`: the mantissa has 53 bits, or fewer at exponent -1074. -/
structure Double where
  mantissa : Nat
  exponent : Int
deriving DecidableEq, Repr

namespace Double

def zero : Double := ⟨0, -1074⟩

def isZero (d : Double) : Bool := d.mantissa == 0

def ratio (d : Double) : Ratio := (Ratio.ofNat d.mantissa).scale 2 d.exponent

/-- The double nearest to a ratio, a half going to the even one. -/
def nearest? (r : Ratio) : Option Double :=
  if r.top = 0 then some zero
  else
    let exponent := max (r.log2 - 52) (-1074)
    let mantissa := (r.scale 2 (-exponent)).round
    let d : Double :=
      if mantissa = Nat.pow 2 53 then ⟨Nat.pow 2 52, exponent + 1⟩ else ⟨mantissa, exponent⟩
    if d.exponent ≤ 971 then some d else none

def mul? (d e : Double) : Option Double := nearest? (d.ratio.mul e.ratio)

/-- The double nearest to the quotient by a double that is not zero. -/
def div? (d e : Double) : Option Double := nearest? (d.ratio.div e.ratio)

/-- The double nearest to `m · 10 ^ e`. Numbers from 10 ^ 400 on and below 10 ^ -400 are decided by
their size, without the power of ten. -/
def ofDecimal? (m : Nat) (e : Int) : Option Double :=
  let size := e + (Text.digits m).length
  if m = 0 || size < -400 then some zero
  else if 400 < size then none
  else nearest? ((Ratio.ofNat m).scale 10 e)

/-- The greatest power of ten that has a double near it. -/
def maxPower : Nat := 308

def tenTo? (n : Nat) : Option Double := ofDecimal? 1 n

/-- The double divided by `10 ^ n`, at most `maxPower` places at a time and rounded each time. -/
def shrink? (d : Double) (n : Nat) : Option Double :=
  if n ≤ maxPower then (tenTo? n).bind d.div?
  else if d.isZero then some d
  else ((tenTo? maxPower).bind d.div?).bind fun e => e.shrink? (n - maxPower)
termination_by n
decreasing_by unfold maxPower at *; omega

/-- The number `m · 10 ^ e` in two steps: the double nearest to `m`, then its product with or its
quotient by the power of ten. Each step is rounded, so this may miss the double nearest to the
number itself. -/
def scaled? (m : Nat) (e : Int) : Option Double := do
  let d ← nearest? (Ratio.ofNat m)
  if e < 0 then d.shrink? e.natAbs
  else if e ≤ maxPower then (tenTo? e.toNat).bind d.mul?
  else if d.isZero then some d
  else none

end Double

end VersionedApi
