import ArchDiagram.Proofs.Sizing

/-!
Boxes of a document without geometry. Every item is in its slot and every container is fitted round
the items inside it, so a container always reaches beyond them; but it stays in its own slot, and an
item inside it may be in an earlier column or row.
-/

namespace ArchDiagram

/-- Along an axis a frame lies between `near` and `far`. -/
def Frame.Spans (r : Frame ℚ) (a : Axis) (near far : ℚ) : Prop :=
  ∃ size, r.start a = some near ∧ r.extent a = some size ∧ far = near + size

namespace Layout

variable {g : Grid ℚ} {d : Document ℚ} {a : Axis}

theorem start_of_open (hopen : ∀ i ∈ d.items, i.frame = {}) {i : Nat} {k : Item ℚ}
    (hk : (Layout.apply g d).items[i]? = some k) : k.frame.start a = some (slotStart g i a) := by
  obtain ⟨hlt, -⟩ := List.getElem?_eq_some_iff.mp hk
  rw [length_items_apply] at hlt
  rw [start_of_apply g (List.getElem?_eq_getElem hlt) hk, hopen _ (List.getElem_mem hlt)]
  cases a <;> rfl

variable (hf : Forest d.containers) (hids : (d.items.map (·.id)).Nodup)
  (hopen : ∀ i ∈ d.items, i.frame = {})
include hf hids hopen

/-- Every container of a document without geometry is fitted. -/
theorem sizedAlong_of_open {j : Nat} {c : Item ℚ}
    (hc : (Layout.apply g d).containers[j]? = some c) : SizedAlong g (Layout.apply g d) c a := by
  obtain ⟨p, hp, -⟩ := exists_of_lineage (map_lineage_containers_apply g d) hc
  obtain ⟨c', hc', -, hsized⟩ := exists_sized hf hids hp
  rw [hc] at hc'
  cases hc'
  apply hsized
  rw [hopen _ (List.mem_append_left _ (List.mem_of_getElem? hp))]
  cases a <;> rfl

theorem exists_extent_pos (hsize : 0 < g.nodeSize a) {k : Item ℚ}
    (hk : k ∈ (Layout.apply g d).items) : ∃ size, k.frame.extent a = some size ∧ 0 < size := by
  rcases List.mem_append.mp hk with hk | hk
  · obtain ⟨j, hj⟩ := List.mem_iff_getElem?.mp hk
    obtain ⟨_, size, _, -, hextent, -, hfitted⟩ := sizedAlong_of_open (a := a) hf hids hopen hj
    exact ⟨size, hextent, hfitted.pos hsize⟩
  · obtain ⟨n, hn, rfl⟩ := List.mem_map.mp hk
    obtain ⟨m, hm, hextent⟩ := extent_of_mem_nodes g hn a
    refine ⟨_, hextent, ?_⟩
    rw [hopen m.toItem (Document.toItem_mem_items hm)]
    cases a <;> exact hsize

theorem exists_spans (hsize : 0 < g.nodeSize a) (hspacing : 0 < g.spacing a) {i j : Nat}
    {k c : Item ℚ} (hk : (Layout.apply g d).items[i]? = some k)
    (hc : (Layout.apply g d).containers[j]? = some c) (hparent : k.parent = some c.id) :
    ∃ near far near' far', k.frame.Spans a near far ∧ c.frame.Spans a near' far' ∧
      far + 20 ≤ far' ∧ (near' ≤ near ↔ cell g j a ≤ cell g i a) := by
  have hmem := List.mem_of_getElem? hk
  have hstart := start_of_open (a := a) hopen hk
  obtain ⟨size, hextent, hpos⟩ := exists_extent_pos hf hids hopen hsize hmem
  obtain ⟨start, size', edges, hstart', hextent', hedges, hfitted⟩ :=
    sizedAlong_of_open (a := a) hf hids hopen hc
  have hslot : start = slotStart g j a := by
    obtain ⟨hlt, -⟩ := List.getElem?_eq_some_iff.mp hc
    have hitem : (Layout.apply g d).items[j]? = some c := by
      rw [Document.items, List.getElem?_append_left hlt, hc]
    have hown := start_of_open (a := a) hopen hitem
    rw [hstart'] at hown
    exact Option.some.inj hown
  -- the far edge of the item is one of those that the container is fitted round
  have hedge : slotStart g i a + size ∈ edges := by
    have hinside : k ∈ (Layout.apply g d).inside c.id :=
      List.mem_filter.mpr ⟨hmem, by simp [hparent]⟩
    have hmapped := List.mem_map_of_mem (f := (·.frame.edge? (g.nodeSize a) a)) hinside
    rw [hedges] at hmapped
    have hvalue : k.frame.edge? (g.nodeSize a) a = some (slotStart g i a + size) := by
      simp [Frame.edge?, hstart, hextent, hpos.ne']
    rw [hvalue] at hmapped
    simpa using hmapped
  refine ⟨_, _, _, _, ⟨size, hstart, hextent, rfl⟩, ⟨size', hstart', hextent', rfl⟩,
    hfitted.edge_le hedge, ?_⟩
  rw [hslot, slotStart_le_iff hspacing]

end Layout

namespace Source

open Layout

/-- When a document without any geometry was read, the items inside a container end at least a
padding of 20 before it does, across and down. Along either axis an item starts no earlier than its
container exactly when its slot is in no earlier column or row; so an item that comes after its
container, as every node does, is never above it. -/
theorem boxes_of_parse {defaultTitle source : String} {d : Document Binary64}
    (h : parse defaultTitle source = .success d) (hopen : ∀ i ∈ d.items, i.frame = {}) (g : Grid ℚ)
    (hsize : ∀ a, 0 < g.nodeSize a) (hspacing : ∀ a, 0 < g.spacing a) {i j : Nat} {k c : Item ℚ}
    (hk : (Layout.apply g d.exact).items[i]? = some k)
    (hc : (Layout.apply g d.exact).containers[j]? = some c) (hparent : k.parent = some c.id)
    (a : Axis) :
    ∃ near far near' far', k.frame.Spans a near far ∧ c.frame.Spans a near' far' ∧
      far + 20 ≤ far' ∧ (near' ≤ near ↔ cell g j a ≤ cell g i a) ∧
        (a = .down → j ≤ i → near' ≤ near) := by
  have hopen' : ∀ i ∈ d.exact.items, i.frame = {} := by
    rw [Document.exact, Document.items_map, List.forall_mem_map]
    intro i hi
    rw [Item.map, hopen i hi]
    rfl
  obtain ⟨near, far, near', far', hspan, hspan', hfar, hnear⟩ :=
    exists_spans (forest_exact_of_parse h) (nodup_ids_exact_of_parse h) hopen' (hsize a)
      (hspacing a) hk hc hparent
  refine ⟨near, far, near', far', hspan, hspan', hfar, hnear, ?_⟩
  rintro rfl hle
  exact hnear.mpr (cell_down_mono g hle)

/-- A node in a later row can start left of the container around it. -/
theorem boxes_of_parse_wrapped :
    let g : Grid ℚ := ⟨120, 80, 200, 150, 2⟩
    let d : Document Binary64 :=
      { title := "Plan"
        containers := [{ id := "a", label := "A" }, { id := "b", label := "B", parent := "a" }]
        nodes := [{ id := "n", label := "N", parent := "b" }] }
    parse "Plan" "container a: \"A\" \x7b\ncontainer b: \"B\" \x7b\nnode n: \"N\"\n\x7d\n\x7d" =
        .success d ∧
      (∀ i ∈ d.items, i.frame = {}) ∧ (∀ a, 0 < g.nodeSize a) ∧ (∀ a, 0 < g.spacing a) ∧
      ∃ k c near far near' far', (Layout.apply g d.exact).items[2]? = some k ∧
        (Layout.apply g d.exact).containers[1]? = some c ∧ k.parent = some c.id ∧
          k.frame.Spans .across near far ∧ c.frame.Spans .across near' far' ∧
            far + 20 ≤ far' ∧ ¬near' ≤ near := by
  intro g d
  have hparse : parse "Plan"
      "container a: \"A\" \x7b\ncontainer b: \"B\" \x7b\nnode n: \"N\"\n\x7d\n\x7d" = .success d :=
    rfl
  have hopen : ∀ i ∈ d.items, i.frame = {} := by simp [d, Document.items]
  have hsize : ∀ a, 0 < g.nodeSize a := by
    intro a
    cases a <;> norm_num [g, Grid.nodeSize]
  have hspacing : ∀ a, 0 < g.spacing a := by
    intro a
    cases a <;> norm_num [g, Grid.spacing]
  obtain ⟨k, hk, -, hkparent⟩ := exists_of_lineage (map_lineage_items_apply g d.exact).symm
    (i := 2) (c := { id := "n", label := "N", parent := "b" }) rfl
  obtain ⟨c, hc, hcid, -⟩ := exists_of_lineage (map_lineage_containers_apply g d.exact).symm
    (i := 1) (c := { id := "b", label := "B", parent := "a" }) rfl
  have hparent : k.parent = some c.id := by rw [hkparent, hcid]
  obtain ⟨near, far, near', far', hspan, hspan', hfar, hnear, -⟩ :=
    boxes_of_parse hparse hopen g hsize hspacing hk hc hparent .across
  refine ⟨hparse, hopen, hsize, hspacing, k, c, near, far, near', far', hk, hc, hparent, hspan,
    hspan', hfar, ?_⟩
  rw [hnear]
  simp [g, cell, columnCount]

/-- A container that comes before the one around it starts left of it. -/
theorem child_left_of_container :
    ∃ d, parse "Untitled Diagram" "container b: \"B\" parent=a\ncontainer a: \"A\"" = .success d ∧
      (∀ i ∈ d.items, i.frame = {}) ∧
      (Layout.apply ⟨120, 80, 200, 150, 4⟩ d.exact).items.map Item.lineage =
        [("b", some "a"), ("a", none)] ∧
      (Layout.apply ⟨120, 80, 200, 150, 4⟩ d.exact).starts .across = [some 0, some 200] := by
  refine ⟨{ title := "Untitled Diagram"
            containers :=
              [{ id := "b", label := "B", parent := "a" }, { id := "a", label := "A" }] },
    rfl, ?_, ?_, ?_⟩
  · simp [Document.items]
  · rw [map_lineage_items_apply]
    rfl
  · rw [starts_apply]
    simp [Document.exact, Document.map, Document.items, Item.map, Frame.map, Frame.start, slotStart,
      cell, columnCount, Scalar.ofNat, Grid.spacing]

end Source

end ArchDiagram
