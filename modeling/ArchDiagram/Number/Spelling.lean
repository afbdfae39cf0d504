import ArchDiagram.Number.Numeral

/-!
Spellings of double-precision numbers. `shown` has the fewest digits that read back and is used in
answers; `plain` has no exponent and is used for coordinates in a description.
-/

namespace ArchDiagram

/-- Decimal digits of a whole number. -/
def digitsOf (n : Nat) : List Char :=
  Nat.toDigits 10 n

def zeros (n : Nat) : List Char :=
  List.replicate n '0'

/-- The digits less the zeros at their end. -/
def dropZeros (ds : List Char) : List Char :=
  (ds.reverse.dropWhile (· == '0')).reverse

namespace Binary64

def sign (negative : Bool) : List Char :=
  if negative then ['-'] else []

/-- Decimal exponents written without an exponent: from `-4` up to `15`. -/
def isPositional (e : Int) : Bool :=
  -4 ≤ e && e < 16

/-- An exponent with its sign and at least two digits. -/
def exponentText (e : Int) : List Char :=
  let ds := digitsOf e.natAbs
  (if e < 0 then ['e', '-'] else ['e', '+']) ++ zeros (2 - ds.length) ++ ds

/-- Digits `ds`, the first of which stands at the power `e` of ten. -/
def placed (ds : List Char) (e : Int) : List Char :=
  if isPositional e then
    if e < 0 then '0' :: '.' :: zeros (-e - 1).toNat ++ ds
    else
      let places := e.toNat + 1
      if ds.length ≤ places then ds ++ zeros (places - ds.length) ++ ['.', '0']
      else ds.take places ++ '.' :: ds.drop places
  else
    let fraction := ds.drop 1
    ds.take 1 ++ (if fraction.isEmpty then [] else '.' :: fraction) ++ exponentText e

def shownMagnitude (m : Magnitude) : List Char :=
  if m.units = 0 then ['0', '.', '0']
  else
    let d := m.shortest
    let ds := digitsOf d.digits
    placed (dropZeros ds) (d.exponent + ds.length - 1)

/-- The fewest digits that read back, with at least one after the point; an exponent for very small
and very large numbers. -/
def shown : Binary64 → List Char
  | nan => "nan".toList
  | infinite s => sign s ++ "inf".toList
  | finite s m => sign s ++ shownMagnitude m

/-- Rounded to `places` digits after the point. -/
def fixed (places : Nat) (m : Magnitude) : List Char :=
  let n := roundQuotient (m.units * pow10 places) Magnitude.one
  let fraction := digitsOf (n % pow10 places)
  digitsOf (n / pow10 places) ++ '.' :: zeros (places - fraction.length) ++ fraction

/-- A fixed spelling without the zeros at its end, and without the point if nothing follows it. -/
def stripped (cs : List Char) : List Char :=
  ((dropZeros cs).reverse.dropWhile (· == '.')).reverse

/-- Whole numbers without a point; otherwise the shown form, or fifteen places where that has an
exponent. -/
def plain : Binary64 → List Char
  | finite s m =>
    if m.units % Magnitude.one = 0 then
      sign (s && m.units != 0) ++ digitsOf (m.units / Magnitude.one)
    else
      let text := shown (finite s m)
      if text.contains 'e' then sign s ++ stripped (fixed 15 m) else text
  | v => shown v

end Binary64

end ArchDiagram
