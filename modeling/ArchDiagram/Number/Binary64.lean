/-!
Double-precision numbers in exact arithmetic. A finite magnitude is a whole number of units of
`2⁻¹⁰⁷⁴`, the least positive value; sums and products are formed exactly on units and rounded once,
to the nearest value and in a tie to the even one.
-/

namespace ArchDiagram

/-- The powers of two. -/
def pow2 (n : Nat) : Nat :=
  Nat.pow 2 n

/-- The nearest whole number to `num / den`, the even one in a tie. -/
def roundQuotient (num den : Nat) : Nat :=
  let q := num / den
  let r := num % den
  if 2 * r < den then q
  else if den < 2 * r then q + 1
  else q + q % 2

/-- A count of units with 53 significant bits, within the range of exponents. -/
def Representable (n : Nat) : Prop :=
  ∃ m e, m < pow2 53 ∧ e ≤ 2045 ∧ n = m * pow2 e

structure Magnitude where
  units : Nat
  representable : Representable units

namespace Magnitude

/-- Units in the number one. -/
def one : Nat := pow2 1074

def zero : Magnitude := ⟨0, 0, 0, by decide, by decide, rfl⟩

/-- Rounds `num / den` units; there is no result beyond the greatest magnitude. -/
def round? (num den : Nat) : Option Magnitude :=
  let e := (num / den).log2 - 52
  let m := roundQuotient num (den * pow2 e)
  if hm : m < pow2 53 then
    if he : e ≤ 2045 then some ⟨m * pow2 e, m, e, hm, he, rfl⟩ else none
  else
    -- the quotient rounded up to the next power of two
    if he : e + 1 ≤ 2045 then some ⟨pow2 52 * pow2 (e + 1), pow2 52, e + 1, by decide, he, rfl⟩
    else none

theorem ext {m n : Magnitude} (h : m.units = n.units) : m = n := by
  cases m; cases n; cases h; rfl

end Magnitude

inductive Binary64 where
  | nan
  | infinite (negative : Bool)
  | finite (negative : Bool) (size : Magnitude)

namespace Binary64

instance : Inhabited Binary64 := ⟨nan⟩

/-- `num / den` units with a sign, rounded. -/
def rounded (negative : Bool) (num den : Nat) : Binary64 :=
  match Magnitude.round? num den with
  | some m => finite negative m
  | none => infinite negative

def ofNat (n : Nat) : Binary64 :=
  rounded false (n * Magnitude.one) 1

/-- The nearest number to a whole number, unless it is out of range. -/
def ofInt? (i : Int) : Option Binary64 :=
  (Magnitude.round? (i.natAbs * Magnitude.one) 1).map (finite (i < 0))

def isFinite : Binary64 → Bool
  | finite _ _ => true
  | _ => false

/-- Both zeros count. -/
def isZero : Binary64 → Bool
  | finite _ m => m.units == 0
  | _ => false

/-- The signed count of units. -/
def signed (negative : Bool) (m : Magnitude) : Int :=
  if negative then -(m.units : Int) else m.units

def neg : Binary64 → Binary64
  | nan => nan
  | infinite s => infinite (!s)
  | finite s m => finite (!s) m

def add : Binary64 → Binary64 → Binary64
  | nan, _ => nan
  | _, nan => nan
  | infinite s, infinite t => if s = t then infinite s else nan
  | infinite s, finite _ _ => infinite s
  | finite _ _, infinite t => infinite t
  | finite s m, finite t n =>
    let sum := signed s m + signed t n
    if sum = 0 then finite (s && t) .zero else rounded (sum < 0) sum.natAbs 1

def sub (a b : Binary64) : Binary64 :=
  add a (neg b)

def mul : Binary64 → Binary64 → Binary64
  | nan, _ => nan
  | _, nan => nan
  | infinite s, infinite t => infinite (s != t)
  | infinite s, finite t n => if n.units = 0 then nan else infinite (s != t)
  | finite s m, infinite t => if m.units = 0 then nan else infinite (s != t)
  | finite s m, finite t n => rounded (s != t) (m.units * n.units) Magnitude.one

/-- The numeric order; nothing is less or greater than `nan`. -/
def less : Binary64 → Binary64 → Bool
  | nan, _ => false
  | _, nan => false
  | infinite s, infinite t => s && !t
  | infinite s, finite _ _ => s
  | finite _ _, infinite t => !t
  | finite s m, finite t n => signed s m < signed t n

/-- Numeric equality: the zeros are equal, and `nan` differs from itself. -/
def equal : Binary64 → Binary64 → Bool
  | infinite s, infinite t => s == t
  | finite s m, finite t n => signed s m == signed t n
  | _, _ => false

instance : Add Binary64 := ⟨add⟩
instance : Sub Binary64 := ⟨sub⟩
instance : Mul Binary64 := ⟨mul⟩
instance : BEq Binary64 := ⟨equal⟩

theorem equal_self_of_isFinite {v : Binary64} (h : v.isFinite = true) : equal v v = true := by
  cases v <;> simp_all [isFinite, equal]

end Binary64

end ArchDiagram
