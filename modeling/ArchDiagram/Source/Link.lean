import ArchDiagram.Source.Fault
import ArchDiagram.Source.Line

/-!
Links: an identifier, an arrow, an identifier, and optionally a colon and a quoted label, as in `api
-> db: "Query"`. Whether the ends are declared is not decided here.
-/

namespace ArchDiagram.Source

open Text

structure LinkStatement where
  source : String
  target : String
  line : Int
  bidirectional : Bool := false
  label : Option String := none
  deriving DecidableEq

/-- An end of a link, which has to be an identifier. -/
def readEnd (which : LinkEnd) (arrow : Arrow) (cs : List Char) : Except Fault String :=
  let id := trim cs
  if id.isEmpty then .error (.missingEnd which arrow)
  else if !isIdentifier id then .error (.invalidEnd which (String.ofList id))
  else .ok (String.ofList id)

/-- The label after the colon: one quoted text and nothing after it. -/
def readLinkLabel (source : String) (arrow : Arrow) (target : String) (cs : List Char) :
    Except Fault String :=
  match trimLeft cs with
  | [] => .error (.missingLinkLabel source arrow target)
  | '"' :: body =>
    match closeQuote? body with
    | none => .error (.unterminatedLinkLabel source arrow target)
    | some (label, rest) =>
      if (trim rest).isEmpty then .ok (String.ofList label)
      else .error (.textAfterLinkLabel (String.ofList (trim rest)))
  | _ => .error (.unquotedLinkLabel source arrow target)

def LinkStatement.read (line : Line) : Except Fault LinkStatement := do
  let some (i, arrow) := findArrow line.text | .error .missingArrow
  let source ← readEnd .source arrow (line.text.take i)
  let rest := trim (line.text.drop (i + arrow.chars.length))
  let statement target label : LinkStatement :=
    { source, target, line := line.number, bidirectional := arrow = .twoWay, label }
  match findOutsideQuotes [':'] rest with
  | none =>
    let target ← readEnd .target arrow rest
    return statement target none
  | some colon =>
    let target ← readEnd .target arrow (rest.take colon)
    let label ← readLinkLabel source arrow target (rest.drop (colon + 1))
    return statement target (some label)

end ArchDiagram.Source
