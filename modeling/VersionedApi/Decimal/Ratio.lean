import VersionedApi.Text.Word

/-!
# Decimals and ratios

`Decimal` : a number `± digits · 10 ^ exponent`; `Decimal.dropZeros` : the same number without zeros
at the end of its digits.

`Ratio` : a rational number that is not negative, as a pair of natural numbers. All operations are
exact; `round` is the nearest integer, `log2` and `magnitude` are the places of the leading binary
and decimal digit.
-/

namespace VersionedApi

/-- The decimal `± digits · 10 ^ exponent`. -/
structure Decimal where
  negative : Bool := false
  digits : Nat
  exponent : Int
deriving DecidableEq, Repr

/-- A decimal without zeros at its end; zero has exponent 0. -/
def Decimal.dropZeros (d : Decimal) : Decimal :=
  let ends := ((Text.digits d.digits).reverse.takeWhile (· == '0')).length
  if d.digits = 0 then { d with exponent := 0 }
  else { d with digits := d.digits / Nat.pow 10 ends, exponent := d.exponent + ends }

/-- The rational number `top / bottom`; the bottom is not zero. -/
structure Ratio where
  top : Nat
  bottom : Nat

namespace Ratio

def ofNat (n : Nat) : Ratio := ⟨n, 1⟩

def mul (r s : Ratio) : Ratio := ⟨r.top * s.top, r.bottom * s.bottom⟩

def div (r s : Ratio) : Ratio := ⟨r.top * s.bottom, r.bottom * s.top⟩

/-- The number `r · b ^ e`. -/
def scale (r : Ratio) (b : Nat) (e : Int) : Ratio :=
  if 0 ≤ e then ⟨r.top * b.pow e.toNat, r.bottom⟩ else ⟨r.top, r.bottom * b.pow (-e).toNat⟩

def floor (r : Ratio) : Nat := r.top / r.bottom

/-- The nearest integer, a half going to the even one. -/
def round (r : Ratio) : Nat :=
  let rest := 2 * (r.top % r.bottom)
  if rest < r.bottom || (rest == r.bottom && r.floor % 2 == 0) then r.floor else r.floor + 1

def le (r s : Ratio) : Bool := r.top * s.bottom ≤ s.top * r.bottom

def lt (r s : Ratio) : Bool := r.top * s.bottom < s.top * r.bottom

/-- The greatest `k` with `2 ^ k ≤ r`, for a number that is not zero. -/
def log2 (r : Ratio) : Int :=
  let guess : Int := (Nat.log2 r.top : Int) - Nat.log2 r.bottom
  if ((ofNat 1).scale 2 guess).le r then guess else guess - 1

/-- Decimal digits before the point; for a number below one, minus the zeros behind it. Numbers
from 10 ^ -400 on are measured right. -/
def magnitude (r : Ratio) : Int := (Text.digits (r.scale 10 400).floor).length - 400

end Ratio

end VersionedApi
