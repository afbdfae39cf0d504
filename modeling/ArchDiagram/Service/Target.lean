import ArchDiagram.Text.Separated

/-!
The target of a request: the path, which names a route, and the parameters that a query adds to it.
-/

namespace ArchDiagram.Service

open Text

structure Target where
  path : String
  query : List (String × String)
  deriving DecidableEq

namespace Target

/-- The value of a digit in base sixteen. -/
def hexValue? (c : Char) : Option Nat :=
  if c.isDigit then some (c.toNat - '0'.toNat)
  else if 'a' ≤ c.toLower && c.toLower ≤ 'f' then some (c.toLower.toNat - 'a'.toNat + 10)
  else none

/-- The character that two digits of an escape stand for; only the basic set has one. -/
def escaped? (a b : Char) : Option Char := do
  let n := 16 * (← hexValue? a) + (← hexValue? b)
  if n < 128 then some (Char.ofNat n) else none

/-- Puts characters in place of their escapes; what is no escape stays. -/
def decode : List Char → List Char
  | '%' :: a :: b :: cs =>
    match escaped? a b with
    | some c => c :: decode cs
    | none => '%' :: decode (a :: b :: cs)
  | c :: cs => c :: decode cs
  | [] => []

/-- Leaves out the segments `.`, and `..` with the one before it; `kept` runs backwards. -/
def resolveDots (kept : List (List Char)) : List (List Char) → List (List Char)
  | [] => kept.reverse
  | s :: rest =>
    if s = ['.'] then resolveDots kept rest
    else if s = ['.', '.'] then resolveDots kept.tail rest
    else resolveDots (s :: kept) rest

/-- Drops a host, which two slashes announce. -/
def dropHost : List Char → List Char
  | '/' :: '/' :: cs => cs.dropWhile (· ≠ '/')
  | cs => cs

/-- A path with a slash before it. Escapes are decoded twice, so that a percent sign which was
escaped itself may begin one more. -/
def readPath (cs : List Char) : List Char :=
  let segments := splitOn '/' ((dropHost cs).dropWhile (· = '/'))
  '/' :: decode (decode (joinWith ['/'] (resolveDots [] segments)))

/-- A name or a value in a query, where a plus sign is a space. -/
def readField (cs : List Char) : String :=
  String.ofList (decode (cs.map fun c => if c = '+' then ' ' else c))

/-- The parameters of a query in order; one without a value has the empty one. -/
def readQuery (cs : List Char) : List (String × String) :=
  ((splitOn '&' cs).filter (!·.isEmpty)).map fun piece =>
    (readField (piece.takeWhile (· ≠ '=')), readField ((piece.dropWhile (· ≠ '=')).drop 1))

/-- Reads a target up to its fragment. A query that is given apart takes the place of the one in the
text. -/
def ofText (text : String) (query : Option (List (String × String)) := none) : Target :=
  let cs := text.toList.takeWhile (· ≠ '#')
  { path := String.ofList (readPath (cs.takeWhile (· ≠ '?')))
    query := query.getD (readQuery ((cs.dropWhile (· ≠ '?')).drop 1)) }

/-- The value of a parameter, the last one if it is repeated. -/
def parameter? (t : Target) (name : String) : Option String :=
  ((t.query.filter (·.1 = name)).getLast?).map (·.2)

/-- The path without slashes at its end and without one line break before them. -/
def place (t : Target) : String :=
  let body := match t.path.toList.reverse.dropWhile (· = '/') with
    | '\n' :: cs => cs
    | cs => cs
  String.ofList body.reverse

end Target

end ArchDiagram.Service
