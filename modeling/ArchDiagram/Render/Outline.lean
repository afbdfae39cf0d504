import ArchDiagram.Document

/-!
The nesting of a document as a sequence of marks: a container is opened, what it holds follows, and
it is closed. Inner containers come before nodes, each in the order of the document.
-/

namespace ArchDiagram.Render

inductive Mark (α : Type) where
  | opened (c : Item α)
  | node (n : Node α)
  | closed

/-- A mark and the number of containers around it. -/
structure Entry (α : Type) where
  depth : Nat
  mark : Mark α

variable {α : Type}

/-- The identifier that a mark introduces. -/
def Mark.id? : Mark α → Option String
  | opened c => some c.id
  | node n => some n.id
  | closed => none

/-- What stands directly inside `parent`, with all it holds, if the nesting ends within `levels`. -/
def outlineWithin? (parentOf : Item α → Option String) (d : Document α) :
    Nat → Nat → Option String → Option (List (Entry α))
  | 0, _, _ => none
  | levels + 1, depth, parent => do
    let inner ← (d.containers.filter (parentOf · == parent)).mapM fun c => do
      let held ← outlineWithin? parentOf d levels (depth + 1) (some c.id)
      return ⟨depth, .opened c⟩ :: held ++ [⟨depth, .closed⟩]
    let nodes := d.nodes.filter (parentOf ·.toItem == parent)
    return inner.flatten ++ nodes.map (⟨depth, .node ·⟩)

/-- The outline of a document. Without repeated identifiers one level for each container is enough;
an outline that goes deeper never ends and is not given. -/
def outline? (parentOf : Item α → Option String) (d : Document α) : Option (List (Entry α)) :=
  outlineWithin? parentOf d (d.containers.length + 1) 0 none

/-- Two spaces for each level. -/
def indent (depth : Nat) : List Char :=
  List.replicate (2 * depth) ' '

end ArchDiagram.Render
