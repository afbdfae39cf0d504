import ArchDiagram.Text.Blank

/-!
The small parts of a statement: identifiers, quoted text, link arrows, and the brace that opens a
block. Quoted text has no escapes, so a place is outside quotes when an even number of quotes stands
before it.
-/

namespace ArchDiagram.Source

open Text

def isIdentifierStart (c : Char) : Bool :=
  c.isAlpha || c == '_'

def isIdentifierChar (c : Char) : Bool :=
  c.isAlphanum || c == '_' || c == '-'

/-- A letter or underscore, then letters, digits, underscores and hyphens. -/
def isIdentifier : List Char → Bool
  | [] => false
  | c :: cs => isIdentifierStart c && cs.all isIdentifierChar

/-- The position of the first `needle` that starts outside quotes. -/
def findOutsideQuotes (needle cs : List Char) : Option Nat :=
  search false cs
where
  /-- The search, inside or outside quotes at the start. -/
  search : Bool → List Char → Option Nat
    | _, [] => none
    | quoted, c :: cs =>
      if c = '"' then (search (!quoted) cs).map (· + 1)
      else if !quoted && needle.isPrefixOf (c :: cs) then some 0
      else (search quoted cs).map (· + 1)

/-- The direction of a link. -/
inductive Arrow where
  | oneWay
  | twoWay
  deriving DecidableEq

def Arrow.text : Arrow → String
  | oneWay => "->"
  | twoWay => "<->"

def Arrow.chars (a : Arrow) : List Char :=
  a.text.toList

/-- The arrow at the start of a text. The longer one is tried first. -/
def arrowAt? (cs : List Char) : Option Arrow :=
  if Arrow.twoWay.chars.isPrefixOf cs then some .twoWay
  else if Arrow.oneWay.chars.isPrefixOf cs then some .oneWay
  else none

/-- The first arrow outside quotes, with its position. -/
def findArrow (cs : List Char) : Option (Nat × Arrow) :=
  search false cs
where
  /-- The search, inside or outside quotes at the start. -/
  search : Bool → List Char → Option (Nat × Arrow)
    | _, [] => none
    | quoted, c :: cs =>
      if c = '"' then later (search (!quoted) cs)
      else if quoted then later (search quoted cs)
      else match arrowAt? (c :: cs) with
        | some a => some (0, a)
        | none => later (search quoted cs)
  /-- A result in the tail, seen from the whole text. -/
  later (found : Option (Nat × Arrow)) : Option (Nat × Arrow) :=
    found.map fun (i, a) => (i + 1, a)

/-- After an opening quote: the quoted text and what follows its closing quote. -/
def closeQuote? (cs : List Char) : Option (List Char × List Char) :=
  match cs.dropWhile (· != '"') with
  | [] => none
  | _ :: rest => some (cs.takeWhile (· != '"'), rest)

/-- Splits off a final opening brace that stands outside quotes. -/
def splitOpening (cs : List Char) : List Char × Bool :=
  match (trimRight cs).reverse with
  | '{' :: before =>
    if before.count '"' % 2 = 0 then (before.reverse, true) else (cs, false)
  | _ => (cs, false)

/-- Whether a statement ends with an opening brace outside quotes. -/
def opensBlock (cs : List Char) : Bool :=
  (splitOpening cs).2

/-- A text cut to forty characters. -/
def snippet (s : String) : String :=
  if s.length ≤ 40 then s else String.ofList (s.toList.take 37) ++ "..."

end ArchDiagram.Source
