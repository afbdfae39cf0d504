/-!
Diagram documents: a title, containers and nodes with optional geometry and an optional enclosing
container, and links between them. Coordinates are values of any type, so that layouts can also be
studied in exact arithmetic.
-/

namespace ArchDiagram

/-- A box, any part of which may be left open. -/
structure Frame (α : Type) where
  x : Option α := none
  y : Option α := none
  width : Option α := none
  height : Option α := none
  deriving BEq

/-- The parts of a frame. -/
inductive Side where
  | x
  | y
  | width
  | height
  deriving DecidableEq

def Frame.set {α : Type} (f : Frame α) (s : Side) (v : α) : Frame α :=
  match s with
  | .x => { f with x := some v }
  | .y => { f with y := some v }
  | .width => { f with width := some v }
  | .height => { f with height := some v }

/-- What containers and nodes have in common. -/
structure Item (α : Type) where
  id : String
  label : String
  frame : Frame α := {}
  parent : Option String := none
  deriving BEq

structure Node (α : Type) extends Item α where
  icon : Option String := none
  deriving BEq

structure Link where
  id : String
  source : String
  target : String
  bidirectional : Bool := false
  label : Option String := none
  deriving BEq, DecidableEq

structure Document (α : Type) where
  title : String
  nodes : List (Node α) := []
  containers : List (Item α) := []
  links : List Link := []
  deriving BEq

namespace Document

variable {α : Type}

/-- All containers, then all nodes. -/
def items (d : Document α) : List (Item α) :=
  d.containers ++ d.nodes.map Node.toItem

def containerIds (d : Document α) : List String :=
  d.containers.map (·.id)

/-- The identifiers of all items in order, each once. -/
def declaredIds (d : Document α) : List String :=
  (d.items.map (·.id)).eraseDups.mergeSort fun a b => !(b < a)

end Document

end ArchDiagram
