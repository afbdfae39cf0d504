import ArchDiagram.Icon.Registry
import ArchDiagram.Render.Outline
import ArchDiagram.Text.Separated
import ArchDiagram.Walk

/-!
D2 diagrams. Containers become nested blocks, links name their ends by dotted paths, and icon tags
are looked up in a registry, which may load its catalog on the way.
-/

namespace ArchDiagram.Render.D2

open Text

variable {α : Type}

/-- The enclosing container of an identifier, if the document has it. Of several items with one
identifier the last counts. -/
def parentOfId (d : Document α) (id : String) : Option String :=
  (d.items.reverse.find? (·.id == id)).bind fun i => i.parent.filter d.containerIds.contains

def escapeChar (c : Char) : List Char :=
  if c = '\\' || c = '"' then ['\\', c] else [c]

/-- A backslash stands before every backslash and every quote. -/
def escape (cs : List Char) : List Char :=
  cs.flatMap escapeChar

def quoted (s : String) : List Char :=
  '"' :: escape s.toList ++ ['"']

/-- Keys that need no quotes: word characters, no digit first. -/
def isBareKey : List Char → Bool
  | [] => false
  | c :: cs => (c.isAlpha || c == '_') && cs.all fun c => c.isAlphanum || c == '_'

def key (id : String) : List Char :=
  if isBareKey id.toList then id.toList else quoted id

/-- A place on the way out of an item: the next container and those passed, the outermost first. -/
structure Ascent where
  next : Option String
  path : List String

def Ascent.step (d : Document α) (a : Ascent) : Ascent ⊕ List String :=
  match a.next with
  | none => .inr a.path
  | some p =>
    if a.path.contains p then .inr a.path else .inl ⟨parentOfId d p, p :: a.path⟩

/-- The containers around an item and the item itself; a loop is followed once. -/
def pathIds (d : Document α) (id : String) : List String :=
  (walk? (Ascent.step d) (d.containers.length + 3) ⟨parentOfId d id, [id]⟩).getD [id]

def path (d : Document α) (id : String) : List Char :=
  joinWith ['.'] ((pathIds d id).map key)

/-- Shapes of base icons; everything else is a rectangle. -/
def shape? (icon : String) : Option String :=
  [("User", "person"), ("Database", "cylinder"), ("Queue", "queue"), ("Cloud", "cloud"),
    ("Gateway", "hexagon"), ("Cache", "oval"), ("Storage", "stored_data")].lookup icon

/-- The parts in the braces of a node with a given icon. -/
def styles (icon : Option String) : List (List Char) :=
  let shape := (icon.bind shape?).map fun s => "shape: ".toList ++ s.toList
  let image := (icon.filter (· != Icon.generic)).map fun i => "icon: ".toList ++ i.toList
  shape.toList ++ image.toList

def nodeText (n : Node α) (icon : Option String) : List Char :=
  let head := key n.id ++ ": ".toList ++ quoted n.label
  let parts := styles icon
  if parts.isEmpty then head
  else head ++ " \x7b ".toList ++ joinWith "; ".toList parts ++ " \x7d".toList

/-- The icon of a node, looked up unless the node has none. -/
def resolveIcon (r : Icon.Registry) (n : Node α) : Option String × Icon.Registry :=
  match n.icon.filter (!·.isEmpty) with
  | none => (none, r)
  | some tag =>
    let (icon, r) := r.resolve tag
    (some icon, r)

/-- The line of a mark and the registry after it. -/
def entryLine (r : Icon.Registry) (e : Entry α) : List Char × Icon.Registry :=
  match e.mark with
  | .opened c => (indent e.depth ++ key c.id ++ ": ".toList ++ quoted c.label ++ " \x7b".toList, r)
  | .closed => (indent e.depth ++ ['}'], r)
  | .node n =>
    let (icon, r) := resolveIcon r n
    (indent e.depth ++ nodeText n icon, r)

def entryLines : Icon.Registry → List (Entry α) → List (List Char) × Icon.Registry
  | r, [] => ([], r)
  | r, e :: es =>
    let (line, r) := entryLine r e
    let (rest, r) := entryLines r es
    (line :: rest, r)

def linkLine (d : Document α) (l : Link) : List Char :=
  let arrow := if l.bidirectional then "<->".toList else "->".toList
  let ends := path d l.source ++ ' ' :: arrow ++ ' ' :: path d l.target
  match l.label.filter (!·.isEmpty) with
  | some label => ends ++ ": ".toList ++ quoted label
  | none => ends

def titleLines (title : String) : List (List Char) :=
  if title.isEmpty then []
  else ["title: ".toList ++ quoted title ++ " \x7b near: top-center; shape: text \x7d".toList, []]

/-- The lines around those of the outline. -/
def lines (d : Document α) (body : List (List Char)) : List (List Char) :=
  ["direction: right".toList, []] ++ titleLines d.title ++ body ++ [[]] ++ d.links.map (linkLine d)

/-- The diagram and the registry after it, unless the nesting has no end. -/
def render? (r : Icon.Registry) (d : Document α) : Option (String × Icon.Registry) :=
  (outline? (fun i => parentOfId d i.id) d).map fun entries =>
    let (body, r) := entryLines r entries
    (String.ofList (unlines (lines d body)), r)

end ArchDiagram.Render.D2
