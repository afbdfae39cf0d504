import ArchDiagram.Render.Outline
import ArchDiagram.Text.Blank
import ArchDiagram.Text.Separated

/-!
Mermaid flowcharts. Containers become nested subgraphs, and every item gets a short name, numbered
in the order of first mention.
-/

namespace ArchDiagram.Render.Mermaid

open Text

variable {α : Type}

/-- The enclosing container, if the document has it. -/
def parentOf (d : Document α) (i : Item α) : Option String :=
  i.parent.filter d.containerIds.contains

/-- All identifiers in the order of first mention. -/
def mentioned (entries : List (Entry α)) (links : List Link) : List String :=
  (entries.filterMap (·.mark.id?) ++ links.flatMap fun l => [l.source, l.target]).eraseDups

/-- The short name of an identifier. -/
def shortName (ids : List String) (id : String) : List Char :=
  "nd".toList ++ Nat.toDigits 10 (ids.idxOf id + 1)

/-- A label in a box; double quotes become single ones. -/
def boxed (label : String) : List Char :=
  "[\"".toList ++ label.toList.map (fun c => if c = '"' then '\'' else c) ++ "\"]".toList

def entryLine (ids : List String) (e : Entry α) : List Char :=
  indent (e.depth + 1) ++ match e.mark with
    | .opened c => "subgraph ".toList ++ shortName ids c.id ++ boxed c.label
    | .node n => shortName ids n.id ++ boxed n.label
    | .closed => "end".toList

/-- Characters that end a label on a link. -/
def isReserved (c : Char) : Bool :=
  c == '|' || c == '"' || c == '#' || c == ';'

/-- A label fit for a link: without reserved characters, with single spaces between words. -/
def cleanLabel (label : List Char) : List Char :=
  trim (squeeze (label.filter (!isReserved ·)))

def linkLine (ids : List String) (l : Link) : List Char :=
  let arrow := if l.bidirectional then "<-->".toList else "-->".toList
  let label := cleanLabel (l.label.getD "").toList
  let middle := if label.isEmpty then arrow else arrow ++ '|' :: label ++ ['|']
  "  ".toList ++ shortName ids l.source ++ ' ' :: middle ++ ' ' :: shortName ids l.target

def lines (d : Document α) (entries : List (Entry α)) : List (List Char) :=
  let ids := mentioned entries d.links
  "flowchart TD".toList :: entries.map (entryLine ids) ++ d.links.map (linkLine ids)

/-- The flowchart, unless the nesting has no end. -/
def render? (d : Document α) : Option String :=
  (outline? (parentOf d) d).map fun entries => String.ofList (unlines (lines d entries))

end ArchDiagram.Render.Mermaid
