import ArchDiagram.Data.Checked
import ArchDiagram.Document

/-!
Documents as plain data. Writing leaves out absent fields, reading takes a missing or `null` field
as absent, and problems are listed in the order of the fields.
-/

namespace ArchDiagram.Data

/-- A field for a value that is there. -/
def present {α : Type} (name : String) (write : α → Value) : Option α → List (String × Value)
  | some a => [(name, write a)]
  | none => []

def itemFields (c : Item Binary64) : List (String × Value) :=
  [("id", .text c.id), ("label", .text c.label)] ++
    present "x" .real c.frame.x ++ present "y" .real c.frame.y ++
    present "width" .real c.frame.width ++ present "height" .real c.frame.height ++
    present "parent" .text c.parent

def ofContainer (c : Item Binary64) : Value :=
  .record (itemFields c)

def ofNode (n : Node Binary64) : Value :=
  .record (itemFields n.toItem ++ present "icon" .text n.icon)

def ofLink (l : Link) : Value :=
  .record ([("id", .text l.id), ("source", .text l.source), ("target", .text l.target),
    ("bidirectional", .bool l.bidirectional)] ++ present "label" .text l.label)

def ofDocument (d : Document Binary64) : Value :=
  .record [("title", .text d.title), ("nodes", .list (d.nodes.map ofNode)),
    ("containers", .list (d.containers.map ofContainer)), ("links", .list (d.links.map ofLink))]

/-- Reads the fields of a record. -/
def readRecord {α : Type} (read : List (String × Value) → Checked α) : Value → Checked α
  | .record fields => read fields
  | _ => .fail .modelType

def readItem (fields : List (String × Value)) : Checked (Item Binary64) :=
  let side name := readFieldOr fields name none (readOptional readReal)
  let make id label x y width height parent : Item Binary64 :=
    { id, label, frame := { x, y, width, height }, parent }
  make <$> readField fields "id" readText <*> readField fields "label" readText
    <*> side "x" <*> side "y" <*> side "width" <*> side "height"
    <*> readFieldOr fields "parent" none (readOptional readText)

def readNode (fields : List (String × Value)) : Checked (Node Binary64) :=
  (fun item icon => { toItem := item, icon }) <$> readItem fields
    <*> readFieldOr fields "icon" none (readOptional readText)

def readLink (fields : List (String × Value)) : Checked Link :=
  let make id source target bidirectional label : Link :=
    { id, source, target, bidirectional, label }
  make <$> readField fields "id" readText <*> readField fields "source" readText
    <*> readField fields "target" readText <*> readFieldOr fields "bidirectional" false readBool
    <*> readFieldOr fields "label" none (readOptional readText)

/-- Reads a document; without a title it has the default one. -/
def readDocument (defaultTitle : String) : Value → Checked (Document Binary64) :=
  readRecord fun fields =>
    let make title nodes containers links : Document Binary64 :=
      { title, nodes, containers, links }
    make <$> readFieldOr fields "title" defaultTitle readText
      <*> readFieldOr fields "nodes" [] (readList (readRecord readNode))
      <*> readFieldOr fields "containers" [] (readList (readRecord readItem))
      <*> readFieldOr fields "links" [] (readList (readRecord readLink))

end ArchDiagram.Data
