import ArchDiagram.Layout
import Mathlib.Algebra.Order.Field.Rat
import Mathlib.Data.Rat.Cast.Order
import Mathlib.Tactic.Common

/-!
Layouts in exact arithmetic. The values of finite numbers are rational, and over the rationals the
sums, products and maxima of a layout are what they say, with nothing rounded.
-/

namespace ArchDiagram

variable {α β : Type}

instance : Scalar ℚ where
  ofNat n := n
  less a b := decide (a < b)
  isZero a := decide (a = 0)

def Frame.map (f : α → β) (r : Frame α) : Frame β where
  x := r.x.map f
  y := r.y.map f
  width := r.width.map f
  height := r.height.map f

def Item.map (f : α → β) (i : Item α) : Item β where
  id := i.id
  label := i.label
  frame := i.frame.map f
  parent := i.parent

def Node.map (f : α → β) (n : Node α) : Node β :=
  { n.toItem.map f with icon := n.icon }

def Document.map (f : α → β) (d : Document α) : Document β where
  title := d.title
  nodes := d.nodes.map (Node.map f)
  containers := d.containers.map (Item.map f)
  links := d.links

theorem Document.items_map (f : α → β) (d : Document α) :
    (d.map f).items = d.items.map (Item.map f) := by
  rw [items, items, Document.map, List.map_append, List.map_map, List.map_map]
  rfl

theorem pow2_pos (n : Nat) : 0 < pow2 n :=
  Nat.pow_pos Nat.two_pos

namespace Binary64

/-- The value of a finite number; there is none that the others could have. -/
def exact : Binary64 → ℚ
  | finite negative m => signed negative m / Magnitude.one
  | _ => 0

end Binary64

/-- A document with the values of its numbers. -/
def Document.exact (d : Document Binary64) : Document ℚ :=
  d.map Binary64.exact

end ArchDiagram
