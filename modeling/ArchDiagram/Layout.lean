import ArchDiagram.Document
import ArchDiagram.Number.Binary64
import ArchDiagram.Walk

/-!
Default layout. Items without a position take their slot of a grid, row by row, in the order
containers, nodes; nodes without a size take the default; containers without a size are fitted round
their children, inner containers first. Whatever a document says itself is kept.
-/

namespace ArchDiagram

/-- The arithmetic that a layout needs. -/
class Scalar (α : Type) extends Add α, Sub α, Mul α where
  ofNat : Nat → α
  less : α → α → Bool
  isZero : α → Bool

instance : Scalar Binary64 where
  ofNat := Binary64.ofNat
  less := Binary64.less
  isZero := Binary64.isZero

structure Grid (α : Type) where
  nodeWidth : α
  nodeHeight : α
  spacingX : α
  spacingY : α
  columns : Int

namespace Layout

variable {α : Type}

/-- There is always at least one column. -/
def columnCount (g : Grid α) : Nat :=
  (max g.columns 1).toNat

section Scalar

variable [Scalar α]

/-- Fills in the position of a slot. -/
def placeFrame (g : Grid α) (slot : Nat) (f : Frame α) : Frame α :=
  { f with
    x := some (f.x.getD (Scalar.ofNat (slot % columnCount g) * g.spacingX))
    y := some (f.y.getD (Scalar.ofNat (slot / columnCount g) * g.spacingY)) }

/-- The slots of containers come before those of nodes. -/
def place (g : Grid α) (d : Document α) : Document α :=
  { d with
    containers := d.containers.mapIdx fun i c => { c with frame := placeFrame g i c.frame }
    nodes := d.nodes.mapIdx fun i n =>
      { n with frame := placeFrame g (d.containers.length + i) n.frame } }

end Scalar

/-- Fills in the default size of nodes. -/
def sizeNodes (g : Grid α) (d : Document α) : Document α :=
  { d with
    nodes := d.nodes.map fun n =>
      { n with frame := { n.frame with
          width := some (n.frame.width.getD g.nodeWidth)
          height := some (n.frame.height.getD g.nodeHeight) } } }

/-- The container that encloses an item; of several of one name the last. An empty name stands for
none. -/
def enclosing? (containers : List (Item α)) (c : Item α) : Option (Item α) :=
  (c.parent.filter (!·.isEmpty)).bind fun p => containers.reverse.find? (·.id == p)

/-- A place on the way out of a container: the next enclosing one, those passed, and how many they
were. -/
structure Exit (α : Type) where
  next : Option (Item α)
  seen : List String
  depth : Nat

def Exit.step (containers : List (Item α)) (e : Exit α) : Exit α ⊕ Nat :=
  match e.next with
  | none => .inr e.depth
  | some p =>
    if e.seen.contains p.id then .inr e.depth
    else .inl ⟨enclosing? containers p, p.id :: e.seen, e.depth + 1⟩

/-- How many containers enclose a container; a loop is followed once. -/
def depth (containers : List (Item α)) (c : Item α) : Nat :=
  (walk? (Exit.step containers) (containers.length + 3)
    ⟨enclosing? containers c, [c.id], 0⟩).getD 0

/-- The positions of the containers in the list, the innermost first. -/
def fittingOrder (containers : List (Item α)) : List Nat :=
  ((containers.mapIdx fun i c => (i, depth containers c)).mergeSort fun a b => b.2 ≤ a.2).map (·.1)

/-- The items directly inside a container. -/
def children (containers : List (Item α)) (nodes : List (Node α)) (c : Item α) : List (Item α) :=
  (containers ++ nodes.map Node.toItem).filter fun k => k.parent == some c.id && k.id != c.id

variable [Scalar α]

/-- The greatest of some values, the first of equals. -/
def greatest? : List α → Option α
  | [] => none
  | a :: as => some (as.foldl (fun m b => if Scalar.less m b then b else m) a)

/-- A size, or the default when it is absent or zero. -/
def sizeOr (default : α) : Option α → α
  | some w => if Scalar.isZero w then default else w
  | none => default

/-- Space kept free between a container's far edges and its children. -/
def padding : α := Scalar.ofNat 20

/-- The extent from `start` to the farthest edge, not below zero, and the padding. -/
def extent? (start : α) (edges : List α) : Option α :=
  (greatest? edges).map fun edge =>
    let room := edge - start
    (if Scalar.less room (Scalar.ofNat 0) then Scalar.ofNat 0 else room) + padding

/-- A coordinate of an item that has been placed. -/
def coordinate (v : Option α) : α :=
  v.getD (Scalar.ofNat 0)

/-- The frame of a container fitted round its children; a size that is there is kept. -/
def fitFrame (g : Grid α) (containers : List (Item α)) (nodes : List (Node α)) (c : Item α) :
    Frame α :=
  let inner := (children containers nodes c).map (·.frame)
  let right := inner.map fun f => coordinate f.x + sizeOr g.nodeWidth f.width
  let bottom := inner.map fun f => coordinate f.y + sizeOr g.nodeHeight f.height
  { c.frame with
    width := some (c.frame.width.getD
      (sizeOr g.nodeWidth (extent? (coordinate c.frame.x) right)))
    height := some (c.frame.height.getD
      (sizeOr g.nodeHeight (extent? (coordinate c.frame.y) bottom))) }

/-- Fits the container at one position of the list. -/
def fitAt (g : Grid α) (nodes : List (Node α)) (containers : List (Item α)) (i : Nat) :
    List (Item α) :=
  containers.modify i fun c => { c with frame := fitFrame g containers nodes c }

def fitContainers (g : Grid α) (d : Document α) : Document α :=
  { d with containers := (fittingOrder d.containers).foldl (fitAt g d.nodes) d.containers }

/-- Fills in all geometry that a document leaves open. -/
def apply (g : Grid α) (d : Document α) : Document α :=
  fitContainers g (sizeNodes g (place g d))

end Layout

end ArchDiagram
