import VersionedApi.Decimal.Double

/-!
# The shortest decimal of a double

`Double.shortest d` is the decimal with the fewest digits among those to which no other double is
nearer than `d`. Of several it is the one nearest to `d`, and of two equally near the even one.

The decimals with `n` digits form a grid; only the two points of it around the double matter, since
a point of the grid that denotes the double has one of them between itself and the double.
-/

namespace VersionedApi.Double

/-- The number is nearer to this double than to its neighbours, or as near and this one is even.
The neighbour below a power of two is only half as far away as the one above. -/
def holds (d : Double) (r : Ratio) : Bool :=
  let quarter (n : Nat) : Ratio := (⟨n, 4⟩ : Ratio).scale 2 d.exponent
  let low := quarter (4 * d.mantissa -
    if d.mantissa = Nat.pow 2 52 && -1074 < d.exponent then 1 else 2)
  let high := quarter (4 * d.mantissa + 2)
  if d.mantissa % 2 = 0 then low.le r && r.le high else low.lt r && r.lt high

/-- The decimal with `n` digits next to the double that denotes it, if there is one. -/
def candidate? (d : Double) (n : Nat) : Option Decimal :=
  let exponent := d.ratio.magnitude - n
  let scaled := d.ratio.scale 10 (-exponent)
  let near := scaled.round
  let far := if near = scaled.floor then near + 1 else scaled.floor
  let denotes (m : Nat) : Bool := d.holds ((Ratio.ofNat m).scale 10 exponent)
  ([near, far].find? denotes).map fun m => { digits := m, exponent }

def exact (d : Double) : Decimal :=
  if 0 ≤ d.exponent then { digits := d.mantissa * Nat.pow 2 d.exponent.toNat, exponent := 0 }
  else { digits := d.mantissa * Nat.pow 5 d.exponent.natAbs, exponent := d.exponent }

/-- The shortest decimal of the double. Seventeen digits suffice. -/
def shortest (d : Double) : Decimal :=
  if d.isZero then { digits := 0, exponent := 0 }
  else (((List.range' 1 17).findSome? d.candidate?).getD d.exact).dropZeros

end VersionedApi.Double
