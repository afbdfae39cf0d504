import ArchDiagram.Layout

/-!
Documents without their frames. A layout gives every item a frame and changes nothing else, so two
documents that a layout may turn into each other are equal up to frames.
-/

namespace ArchDiagram

variable {α : Type}

def Item.unframed (i : Item α) : Item α :=
  { i with frame := {} }

def Node.unframed (n : Node α) : Node α :=
  { n with frame := {} }

/-- A document in which all frames are open. -/
def Document.unframed (d : Document α) : Document α :=
  { d with nodes := d.nodes.map Node.unframed, containers := d.containers.map Item.unframed }

theorem Document.containerIds_unframed (d : Document α) :
    d.unframed.containerIds = d.containerIds := by
  rw [containerIds, unframed, List.map_map]
  rfl

namespace Layout

variable (g : Grid α)

theorem unframed_sizeNodes (d : Document α) : (sizeNodes g d).unframed = d.unframed := by
  rw [Document.unframed, sizeNodes, List.map_map]
  rfl

variable [Scalar α]

theorem unframed_place (d : Document α) : (place g d).unframed = d.unframed := by
  have hcontainers : (place g d).containers.map Item.unframed = d.containers.map Item.unframed := by
    apply List.ext_getElem
    · simp [place]
    · intro i _ _
      simp [place, Item.unframed]
  have hnodes : (place g d).nodes.map Node.unframed = d.nodes.map Node.unframed := by
    apply List.ext_getElem
    · simp [place]
    · intro i _ _
      simp [place, Node.unframed]
  rw [Document.unframed, hcontainers, hnodes]
  rfl

section Fitting

variable {g} {β : Type} {f : Item α → β}
  (hf : ∀ cs nodes c, f { c with frame := fitFrame g cs nodes c } = f c)
include hf

/-- One fitting changes the frame of one container. -/
theorem map_fitAt (nodes : List (Node α)) (cs : List (Item α)) (i : Nat) :
    (fitAt g nodes cs i).map f = cs.map f := by
  apply List.ext_getElem
  · simp [fitAt]
  · intro k _ _
    rw [List.getElem_map, List.getElem_map]
    simp only [fitAt, List.getElem_modify]
    split
    · exact hf cs nodes _
    · rfl

/-- What no fitting changes is the same after all of them. -/
theorem map_foldl_fitAt (nodes : List (Node α)) (order : List Nat) (cs : List (Item α)) :
    (order.foldl (fitAt g nodes) cs).map f = cs.map f := by
  induction order generalizing cs with
  | nil => rfl
  | cons i order ih => rw [List.foldl_cons, ih, map_fitAt hf]

end Fitting

theorem unframed_fitContainers (d : Document α) : (fitContainers g d).unframed = d.unframed := by
  rw [Document.unframed, fitContainers, map_foldl_fitAt (f := Item.unframed) fun _ _ _ => rfl]
  rfl

/-- A layout changes frames only. -/
theorem unframed_apply (d : Document α) : (Layout.apply g d).unframed = d.unframed := by
  rw [Layout.apply, unframed_fitContainers, unframed_sizeNodes, unframed_place]

end Layout

end ArchDiagram
