import ArchDiagram.Number.Binary64

/-!
Decimal numbers: a whole number of powers of ten, their nearest double-precision number, and for a
double-precision number the decimal with the fewest digits that is read back as it.
-/

namespace ArchDiagram

/-- The powers of ten. -/
def pow10 (n : Nat) : Nat :=
  Nat.pow 10 n

/-- The number `digits · 10 ^ exponent`. -/
structure Decimal where
  digits : Nat
  exponent : Int

namespace Decimal

/-- The nearest magnitude. Exponents far outside the range are decided without computing their
power. -/
def magnitude? (d : Decimal) : Option Magnitude :=
  if d.digits = 0 then some .zero
  else if 400 < d.exponent then none
  else if d.exponent + d.digits.log2 + 1 < -400 then some .zero
  else if 0 ≤ d.exponent then
    Magnitude.round? (d.digits * pow10 d.exponent.toNat * Magnitude.one) 1
  else
    Magnitude.round? (d.digits * Magnitude.one) (pow10 (-d.exponent).toNat)

/-- Beyond the greatest magnitude the reading is infinite. -/
def toBinary64 (negative : Bool) (d : Decimal) : Binary64 :=
  match d.magnitude? with
  | some m => .finite negative m
  | none => .infinite negative

def readsAs (d : Decimal) (m : Magnitude) : Bool :=
  d.magnitude?.any (·.units == m.units)

end Decimal

namespace Magnitude

/-- The position of the decimal point: a magnitude other than zero is below `10 ^ k`, not below `10
^ (k - 1)`. -/
def pointPosition (m : Magnitude) : Int :=
  ((Nat.toDigits 10 (m.units * pow10 330 / one)).length : Int) - 330

/-- The decimal with `n` digits nearest to `m` that is read back as `m`. Only the two neighbours of
`m` on the grid of such decimals can be; in a tie the even one is taken. -/
def onGrid? (m : Magnitude) (n : Nat) : Option Decimal :=
  let exponent := m.pointPosition - n
  let num := m.units * pow10 (-exponent).toNat
  let den := one * pow10 exponent.toNat
  let lower : Decimal := ⟨num / den, exponent⟩
  let upper : Decimal := ⟨num / den + 1, exponent⟩
  let near : Decimal := ⟨roundQuotient num den, exponent⟩
  match lower.readsAs m, upper.readsAs m with
  | true, true => some near
  | true, false => some lower
  | false, true => some upper
  | false, false => none

/-- The exact value, since a unit is `5¹⁰⁷⁴ · 10⁻¹⁰⁷⁴`. -/
def exact (m : Magnitude) : Decimal :=
  ⟨m.units * Nat.pow 5 1074, -1074⟩

/-- The decimal with the fewest digits that is read back as `m`; seventeen digits are enough. -/
def shortest (m : Magnitude) : Decimal :=
  ((List.range 17).findSome? fun i => m.onGrid? (i + 1)).getD m.exact

end Magnitude

end ArchDiagram
