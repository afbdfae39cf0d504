import ArchDiagram.Document
import ArchDiagram.Number.Spelling
import ArchDiagram.Source.Lexeme
import ArchDiagram.Text.Separated

/-!
Documents as source text: the title unless it is the default one, containers, nodes, and links last.
Parents are written as attributes, so no blocks are needed. Some texts have no place in a source,
and the first of them is the reason for refusal.
-/

namespace ArchDiagram.Source

open Text

inductive Unwritable where
  | identifier (value : String)
  | quoted (owner : String)
  | bare (value owner : String)
  deriving DecidableEq

def Unwritable.message : Unwritable → String
  | identifier value => "'" ++ value ++ "' is not a valid DSL identifier"
  | quoted owner => "Text of '" ++ owner ++ "' cannot contain quotes or newlines in DSL output"
  | bare value owner =>
    "Attribute value '" ++ value ++ "' of '" ++ owner ++ "' must be a single bare token"

def writeIdentifier (value : String) : Except Unwritable (List Char) :=
  if isIdentifier value.toList then .ok value.toList else .error (.identifier value)

/-- Quoted text has no escapes. -/
def writeQuoted (owner value : String) : Except Unwritable (List Char) :=
  if value.toList.any fun c => c == '"' || c == '\n' then .error (.quoted owner)
  else .ok ('"' :: value.toList ++ ['"'])

def writeBare (owner value : String) : Except Unwritable (List Char) :=
  if value.isEmpty || value.toList.any (fun c => isBlank c || c == '"') then
    .error (.bare value owner)
  else .ok value.toList

/-- An optional text that is not empty. -/
def filled? (s : Option String) : Option String :=
  s.filter (!·.isEmpty)

/-- The attributes for the parts of a frame that are there. -/
def writeFrame (f : Frame Binary64) : List (List Char) :=
  let side (key : String) (v : Option Binary64) : List (List Char) :=
    (v.map fun v => key.toList ++ '=' :: v.plain).toList
  side "x" f.x ++ side "y" f.y ++ side "w" f.width ++ side "h" f.height

def writeItem (keyword : String) (item : Item Binary64) (icon : Option String) :
    Except Unwritable (List Char) := do
  let id ← writeIdentifier item.id
  let label ← writeQuoted item.id item.label
  let icon ← match filled? icon with
    | some icon => (writeBare item.id icon).map fun cs => ["icon=".toList ++ cs]
    | none => .ok []
  let parent ← match filled? item.parent with
    | some parent => (writeIdentifier parent).map fun cs => ["parent=".toList ++ cs]
    | none => .ok []
  let head := keyword.toList ++ ' ' :: id ++ ": ".toList ++ label
  return joinWith [' '] (head :: icon ++ writeFrame item.frame ++ parent)

def writeLink (l : Link) : Except Unwritable (List Char) := do
  let arrow : Arrow := if l.bidirectional then .twoWay else .oneWay
  let source ← writeIdentifier l.source
  let target ← writeIdentifier l.target
  let label ← match l.label with
    | some label => (writeQuoted l.id label).map fun cs => ": ".toList ++ cs
    | none => .ok []
  return source ++ ' ' :: arrow.chars ++ ' ' :: target ++ label

/-- The lines of a document. -/
def writeLines (defaultTitle : String) (d : Document Binary64) :
    Except Unwritable (List (List Char)) := do
  let title ← if d.title = defaultTitle then .ok []
    else (writeQuoted "title" d.title).map fun cs => ["title ".toList ++ cs, []]
  let containers ← d.containers.mapM fun c => writeItem "container" c none
  let nodes ← d.nodes.mapM fun n => writeItem "node" n.toItem n.icon
  let links ← d.links.mapM writeLink
  let gap := if links.isEmpty || (containers.isEmpty && nodes.isEmpty) then [] else [[]]
  return title ++ containers ++ nodes ++ gap ++ links

/-- Each line ends with a line feed. -/
def write (defaultTitle : String) (d : Document Binary64) : Except Unwritable String :=
  (writeLines defaultTitle d).map fun ls => String.ofList (ls.flatMap (· ++ ['\n']))

end ArchDiagram.Source
