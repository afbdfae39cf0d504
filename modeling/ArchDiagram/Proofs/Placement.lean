import ArchDiagram.Proofs.Exact
import ArchDiagram.Proofs.Unframed
import Mathlib.Algebra.Order.Field.Basic

/-!
Where a layout puts items. Along each axis an item keeps a coordinate that it has, and gets that of
its slot otherwise; sizing moves nothing. No two slots are at one place, so an item in its slot is
met only by an item that was given a coordinate.
-/

namespace ArchDiagram

variable {α : Type}

/-- The directions in which frames extend. -/
inductive Axis where
  | across
  | down

def Frame.start (r : Frame α) : Axis → Option α
  | .across => r.x
  | .down => r.y

def Frame.extent (r : Frame α) : Axis → Option α
  | .across => r.width
  | .down => r.height

def Grid.spacing (g : Grid α) : Axis → α
  | .across => g.spacingX
  | .down => g.spacingY

def Grid.nodeSize (g : Grid α) : Axis → α
  | .across => g.nodeWidth
  | .down => g.nodeHeight

/-- The coordinates of all items along an axis. -/
def Document.starts (d : Document α) (a : Axis) : List (Option α) :=
  d.items.map (·.frame.start a)

namespace Layout

/-- The column of a slot, or its row. -/
def cell (g : Grid α) (slot : Nat) : Axis → Nat
  | .across => slot % columnCount g
  | .down => slot / columnCount g

/-- A slot is known by its column and its row. -/
theorem cell_injective (g : Grid α) {i j : Nat} (h : ∀ a, cell g i a = cell g j a) : i = j := by
  have hcolumn : i % columnCount g = j % columnCount g := h .across
  have hrow : i / columnCount g = j / columnCount g := h .down
  rw [← Nat.div_add_mod i (columnCount g), ← Nat.div_add_mod j (columnCount g), hcolumn, hrow]

/-- Later slots are in the same row or in a later one. -/
theorem cell_down_mono (g : Grid α) {i j : Nat} (h : i ≤ j) : cell g i .down ≤ cell g j .down :=
  Nat.div_le_div_right h

theorem starts_sizeNodes (g : Grid α) (d : Document α) (a : Axis) :
    (sizeNodes g d).starts a = d.starts a := by
  rw [Document.starts, Document.starts, Document.items, Document.items, List.map_append,
    List.map_append, sizeNodes, List.map_map, List.map_map, List.map_map]
  cases a <;> rfl

section Scalar

variable [Scalar α] (g : Grid α)

def slotStart (slot : Nat) (a : Axis) : α :=
  Scalar.ofNat (cell g slot a) * g.spacing a

theorem start_placeFrame (slot : Nat) (r : Frame α) (a : Axis) :
    (placeFrame g slot r).start a = some ((r.start a).getD (slotStart g slot a)) := by
  cases a <;> rfl

theorem extent_placeFrame (slot : Nat) (r : Frame α) (a : Axis) :
    (placeFrame g slot r).extent a = r.extent a := by
  cases a <;> rfl

theorem items_place (d : Document α) :
    (place g d).items =
      d.items.mapIdx fun i c => { c with frame := placeFrame g i c.frame } := by
  rw [Document.items, Document.items, List.mapIdx_append]
  congr 1
  apply List.ext_getElem <;> simp [place, Nat.add_comm]

theorem starts_place (d : Document α) (a : Axis) :
    (place g d).starts a =
      d.items.mapIdx fun i c => some ((c.frame.start a).getD (slotStart g i a)) := by
  rw [Document.starts, items_place]
  apply List.ext_getElem
  · simp
  · intro i _ _
    simp [start_placeFrame]

theorem start_fitFrame (cs : List (Item α)) (nodes : List (Node α)) (c : Item α) (a : Axis) :
    (fitFrame g cs nodes c).start a = c.frame.start a := by
  cases a <;> rfl

theorem starts_fitContainers (d : Document α) (a : Axis) :
    (fitContainers g d).starts a = d.starts a := by
  have hfold := map_foldl_fitAt (f := (·.frame.start a))
    (fun cs nodes c => start_fitFrame g cs nodes c a) d.nodes (fittingOrder d.containers)
    d.containers
  rw [Document.starts, Document.starts, Document.items, Document.items, List.map_append,
    List.map_append, fitContainers, hfold]

/-- Coordinates are those given, or those of the slots. -/
theorem starts_apply (d : Document α) (a : Axis) :
    (Layout.apply g d).starts a =
      d.items.mapIdx fun i c => some ((c.frame.start a).getD (slotStart g i a)) := by
  rw [Layout.apply, starts_fitContainers, starts_sizeNodes, starts_place]

theorem start_of_apply {d : Document α} {i : Nat} {p p' : Item α} (hp : d.items[i]? = some p)
    (hp' : (Layout.apply g d).items[i]? = some p') (a : Axis) :
    p'.frame.start a = some ((p.frame.start a).getD (slotStart g i a)) := by
  have hstart := congrArg (·[i]?) (starts_apply g d a)
  simpa [Document.starts, hp, hp'] using hstart

/-- A layout leaves no coordinate open. -/
theorem exists_start_of_mem {d : Document α} {k : Item α} (hk : k ∈ (Layout.apply g d).items)
    (a : Axis) : ∃ start, k.frame.start a = some start := by
  have hmem : k.frame.start a ∈ (Layout.apply g d).starts a := List.mem_map_of_mem hk
  rw [starts_apply, List.mem_mapIdx] at hmem
  obtain ⟨i, hi, hstart⟩ := hmem
  exact ⟨_, hstart.symm⟩

theorem length_items_apply (d : Document α) :
    (Layout.apply g d).items.length = d.items.length := by
  have hlength := congrArg List.length (starts_apply g d .across)
  simpa [Document.starts] using hlength

end Scalar

section Exact

variable {g : Grid ℚ}

theorem slotStart_le_iff {a : Axis} (hspacing : 0 < g.spacing a) {i j : Nat} :
    slotStart g i a ≤ slotStart g j a ↔ cell g i a ≤ cell g j a := by
  change (cell g i a : ℚ) * g.spacing a ≤ (cell g j a : ℚ) * g.spacing a ↔ _
  rw [mul_le_mul_iff_left₀ hspacing, Nat.cast_le]

theorem slotStart_eq_iff {a : Axis} (hspacing : 0 < g.spacing a) {i j : Nat} :
    slotStart g i a = slotStart g j a ↔ cell g i a = cell g j a := by
  rw [le_antisymm_iff, slotStart_le_iff hspacing, slotStart_le_iff hspacing, ← le_antisymm_iff]

/-- An item with an open place ends in its slot. Another item of the document ends at the same place
exactly when that place was given to it, at least in part: a coordinate of it is given, and along
each axis it is given the coordinate of that slot or is left in the same column or row. -/
theorem same_place_iff (hspacing : ∀ a, 0 < g.spacing a) (d : Document ℚ) {i j : Nat} (hij : i ≠ j)
    {p q : Item ℚ} (hp : d.items[i]? = some p) (hq : d.items[j]? = some q)
    (hopen : ∀ a, p.frame.start a = none) :
    ∃ p' q', (Layout.apply g d).items[i]? = some p' ∧ (Layout.apply g d).items[j]? = some q' ∧
      (∀ a, p'.frame.start a = some (slotStart g i a)) ∧
      ((∀ a, p'.frame.start a = q'.frame.start a) ↔
        (∃ a, q.frame.start a ≠ none) ∧
          ∀ a, q.frame.start a = some (slotStart g i a) ∨
            q.frame.start a = none ∧ cell g j a = cell g i a) := by
  obtain ⟨hi, -⟩ := List.getElem?_eq_some_iff.mp hp
  obtain ⟨hj, -⟩ := List.getElem?_eq_some_iff.mp hq
  rw [← length_items_apply g d] at hi hj
  obtain ⟨p', hp'⟩ : ∃ p', (Layout.apply g d).items[i]? = some p' :=
    ⟨_, List.getElem?_eq_getElem hi⟩
  obtain ⟨q', hq'⟩ : ∃ q', (Layout.apply g d).items[j]? = some q' :=
    ⟨_, List.getElem?_eq_getElem hj⟩
  have hstart (a : Axis) : p'.frame.start a = some (slotStart g i a) := by
    rw [start_of_apply g hp hp', hopen, Option.getD_none]
  refine ⟨p', q', hp', hq', hstart, ?_⟩
  -- along one axis the other item is where it was given to be, or in its own slot
  have hmeet (a : Axis) : p'.frame.start a = q'.frame.start a ↔
      q.frame.start a = some (slotStart g i a) ∨
        q.frame.start a = none ∧ cell g j a = cell g i a := by
    rw [hstart, start_of_apply g hq hq', Option.some.injEq]
    cases q.frame.start a with
    | none => simp [slotStart_eq_iff (hspacing a), eq_comm]
    | some v => simp [eq_comm]
  simp only [hmeet]
  refine ⟨fun h => ⟨?_, h⟩, And.right⟩
  -- two open places are two slots
  by_contra hnone
  push Not at hnone
  apply hij
  apply cell_injective g
  intro a
  rcases h a with hgiven | ⟨-, hcell⟩
  · rw [hnone a] at hgiven
    cases hgiven
  · exact hcell.symm

/-- A node that is given one coordinate only can stand where a container has its slot. -/
theorem same_place_iff_partly_given :
    let g : Grid ℚ := ⟨120, 80, 200, 150, 0⟩
    let d : Document ℚ :=
      { title := "Plan"
        containers := [{ id := "c", label := "C" }]
        nodes := [{ id := "n", label := "N", frame := { y := some 0 } }] }
    (∀ a, 0 < g.spacing a) ∧ ∃ p q, (Layout.apply g d).items[0]? = some p ∧
      (Layout.apply g d).items[1]? = some q ∧ ∀ a, p.frame.start a = q.frame.start a := by
  intro g d
  have hspacing : ∀ a, 0 < g.spacing a := by
    intro a
    cases a <;> norm_num [g, Grid.spacing]
  obtain ⟨p, q, hp, hq, -, hiff⟩ :=
    same_place_iff hspacing d Nat.zero_ne_one rfl rfl (by intro a; cases a <;> rfl)
  refine ⟨hspacing, p, q, hp, hq, hiff.mpr ⟨⟨.down, by simp [Frame.start]⟩, ?_⟩⟩
  intro a
  cases a with
  | across => exact .inr ⟨rfl, by simp [g, cell, columnCount]⟩
  | down => exact .inl (by simp [Frame.start, slotStart, cell, Scalar.ofNat])

/-- A slot is not kept free of an item that was placed there. -/
theorem slot_taken :
    ∃ (g : Grid ℚ) (d : Document ℚ), (∀ a, 0 < g.spacing a) ∧
      (∀ a, d.starts a = [none, some 0]) ∧ ∀ a, (Layout.apply g d).starts a = [some 0, some 0] := by
  refine ⟨⟨120, 80, 200, 150, 4⟩,
    { title := "Plan"
      nodes := [{ id := "b", label := "B" },
        { id := "a", label := "A", frame := { x := some 0, y := some 0 } }] }, ?_, ?_, ?_⟩
  · intro a
    cases a <;> norm_num [Grid.spacing]
  · intro a
    cases a <;> rfl
  · intro a
    rw [starts_apply]
    cases a <;> simp [Document.items, Frame.start, slotStart, cell, Scalar.ofNat]

end Exact

end Layout

end ArchDiagram
