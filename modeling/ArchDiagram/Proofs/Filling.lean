import ArchDiagram.Proofs.Frameless
import ArchDiagram.Proofs.Sizing

/-!
What a layout fills in. Whatever contains what, and whichever names are repeated, nothing stays open
and nothing that was given is changed: each of the three passes keeps what is there, the first gives
every item its coordinates, and the last two give every item its size. A document with nothing open
is left as it is, so a second layout changes nothing, and drawings show no frames.
-/

namespace ArchDiagram

variable {α : Type}

/-- Nothing of a frame is open. -/
def Frame.Complete (r : Frame α) : Prop :=
  ∀ a, (r.start a).isSome = true ∧ (r.extent a).isSome = true

/-- All that a frame has is in another one. -/
def Frame.KeptIn (r r' : Frame α) : Prop :=
  ∀ a, (∀ v ∈ r.start a, v ∈ r'.start a) ∧ ∀ v ∈ r.extent a, v ∈ r'.extent a

namespace Frame.KeptIn

theorem refl (r : Frame α) : r.KeptIn r :=
  fun _ => ⟨fun _ h => h, fun _ h => h⟩

theorem trans {r r' r'' : Frame α} (h : r.KeptIn r') (h' : r'.KeptIn r'') : r.KeptIn r'' :=
  fun a => ⟨fun v hv => (h' a).1 v ((h a).1 v hv), fun v hv => (h' a).2 v ((h a).2 v hv)⟩

theorem isSome_start {r r' : Frame α} (h : r.KeptIn r') {a : Axis}
    (hr : (r.start a).isSome = true) : (r'.start a).isSome = true := by
  obtain ⟨v, hv⟩ := Option.isSome_iff_exists.mp hr
  exact Option.isSome_of_mem ((h a).1 v hv)

theorem isSome_extent {r r' : Frame α} (h : r.KeptIn r') {a : Axis}
    (hr : (r.extent a).isSome = true) : (r'.extent a).isSome = true := by
  obtain ⟨v, hv⟩ := Option.isSome_iff_exists.mp hr
  exact Option.isSome_of_mem ((h a).2 v hv)

end Frame.KeptIn

/-- A frame is known by where it starts and how far it extends along both axes. -/
theorem Frame.ext_axes {r r' : Frame α} (hstart : ∀ a, r.start a = r'.start a)
    (hextent : ∀ a, r.extent a = r'.extent a) : r = r' := by
  obtain ⟨x, y, width, height⟩ := r
  obtain ⟨x', y', width', height'⟩ := r'
  obtain rfl : x = x' := hstart .across
  obtain rfl : y = y' := hstart .down
  obtain rfl : width = width' := hextent .across
  obtain rfl : height = height' := hextent .down
  rfl

theorem mem_some_getD {o : Option α} {v default : α} (h : v ∈ o) : v ∈ some (o.getD default) := by
  rw [Option.mem_def.mp h]
  rfl

theorem some_getD_of_isSome {o : Option α} {default : α} (h : o.isSome = true) :
    some (o.getD default) = o := by
  obtain ⟨v, rfl⟩ := Option.isSome_iff_exists.mp h
  rfl

namespace Layout

/-- The frame of a node with the default for a size that is open. -/
def sizeFrame (g : Grid α) (r : Frame α) : Frame α :=
  { r with
    width := some (r.width.getD g.nodeWidth)
    height := some (r.height.getD g.nodeHeight) }

theorem sizeNodes_eq (g : Grid α) (d : Document α) :
    sizeNodes g d =
      { d with nodes := d.nodes.map fun n => { n with frame := sizeFrame g n.frame } } :=
  rfl

theorem start_sizeFrame (g : Grid α) (r : Frame α) (a : Axis) :
    (sizeFrame g r).start a = r.start a := by
  cases a <;> rfl

theorem extent_sizeFrame (g : Grid α) (r : Frame α) (a : Axis) :
    (sizeFrame g r).extent a = some ((r.extent a).getD (g.nodeSize a)) := by
  cases a <;> rfl

theorem keptIn_sizeFrame (g : Grid α) (r : Frame α) : r.KeptIn (sizeFrame g r) := by
  intro a
  rw [start_sizeFrame, extent_sizeFrame]
  exact ⟨fun _ hv => hv, fun _ hv => mem_some_getD hv⟩

theorem sizeFrame_of_complete (g : Grid α) {r : Frame α} (hr : r.Complete) : sizeFrame g r = r :=
  Frame.ext_axes (fun a => start_sizeFrame g r a)
    fun a => by rw [extent_sizeFrame, some_getD_of_isSome (hr a).2]

variable [Scalar α] (g : Grid α)

theorem keptIn_placeFrame (slot : Nat) (r : Frame α) : r.KeptIn (placeFrame g slot r) := by
  intro a
  rw [start_placeFrame, extent_placeFrame]
  exact ⟨fun _ hv => mem_some_getD hv, fun _ hv => hv⟩

theorem keptIn_fitFrame (cs : List (Item α)) (nodes : List (Node α)) (c : Item α) :
    c.frame.KeptIn (fitFrame g cs nodes c) := by
  intro a
  rw [start_fitFrame, extent_fitFrame]
  exact ⟨fun _ hv => hv, fun _ hv => mem_some_getD hv⟩

section Fitting

variable (nodes : List (Node α)) {cs : List (Item α)} {c : Item α} {j : Nat}

/-- One fitting keeps what containers have, and leaves the one it fits with a size. -/
theorem exists_fitAt (hc : cs[j]? = some c) (i : Nat) :
    ∃ c', (fitAt g nodes cs i)[j]? = some c' ∧ c.frame.KeptIn c'.frame ∧
      (i = j → ∀ a, (c'.frame.extent a).isSome = true) := by
  rw [getElem?_fitAt, hc]
  by_cases hij : i = j
  · rw [if_pos hij]
    refine ⟨_, rfl, keptIn_fitFrame g cs nodes c, fun _ a => ?_⟩
    change ((fitFrame g cs nodes c).extent a).isSome = true
    rw [extent_fitFrame, Option.isSome_some]
  · rw [if_neg hij]
    exact ⟨c, rfl, .refl _, fun h => absurd h hij⟩

/-- However many fittings there are, in whatever order, they keep what containers have, and all that
are fitted have a size. -/
theorem exists_foldl_fitAt (hc : cs[j]? = some c) (order : List Nat) :
    ∃ c', (order.foldl (fitAt g nodes) cs)[j]? = some c' ∧ c.frame.KeptIn c'.frame ∧
      (j ∈ order → ∀ a, (c'.frame.extent a).isSome = true) := by
  induction order generalizing cs c with
  | nil => exact ⟨c, hc, .refl _, fun h => absurd h List.not_mem_nil⟩
  | cons i order ih =>
    obtain ⟨c₁, hc₁, hkept₁, hsized₁⟩ := exists_fitAt g nodes hc i
    obtain ⟨c₂, hc₂, hkept₂, hsized₂⟩ := ih hc₁
    refine ⟨c₂, hc₂, hkept₁.trans hkept₂, fun hj a => ?_⟩
    rcases List.mem_cons.mp hj with rfl | hj
    · exact hkept₂.isSome_extent (hsized₁ rfl a)
    · exact hsized₂ hj a

/-- A container with nothing open is not changed by its fitting. -/
theorem fitFrame_of_complete (cs : List (Item α)) (hc : c.frame.Complete) :
    fitFrame g cs nodes c = c.frame :=
  Frame.ext_axes (fun a => start_fitFrame g cs nodes c a) fun a => by
    rw [extent_fitFrame, some_getD_of_isSome (hc a).2]

theorem fitAt_of_complete (hcs : ∀ c ∈ cs, c.frame.Complete) (i : Nat) :
    fitAt g nodes cs i = cs := by
  apply List.ext_getElem?
  intro j
  rw [getElem?_fitAt]
  split
  · cases hc : cs[j]? with
    | none => rfl
    | some c => rw [Option.map_some, fitFrame_of_complete g nodes cs
        (hcs c (List.mem_of_getElem? hc))]
  · rfl

theorem foldl_fitAt_of_complete (hcs : ∀ c ∈ cs, c.frame.Complete) (order : List Nat) :
    order.foldl (fitAt g nodes) cs = cs := by
  induction order with
  | nil => rfl
  | cons i order ih => rw [List.foldl_cons, fitAt_of_complete g nodes hcs, ih]

end Fitting

theorem placeFrame_of_complete (slot : Nat) {r : Frame α} (hr : r.Complete) :
    placeFrame g slot r = r :=
  Frame.ext_axes
    (fun a => by rw [start_placeFrame, some_getD_of_isSome (hr a).1])
    fun a => extent_placeFrame g slot r a

/-- A document with nothing open is left as it is. -/
theorem apply_of_complete {d : Document α} (h : ∀ i ∈ d.items, i.frame.Complete) :
    Layout.apply g d = d := by
  have hcontainers : ∀ c ∈ d.containers, c.frame.Complete :=
    fun c hc => h c (List.mem_append_left _ hc)
  have hnodes : ∀ n ∈ d.nodes, n.frame.Complete := fun n hn => h _ (Document.toItem_mem_items hn)
  have hplace : place g d = d := by
    have hplaced : (place g d).containers = d.containers := by
      apply List.ext_getElem
      · simp [place]
      · intro i _ hi
        simp [place, placeFrame_of_complete g i (hcontainers _ (List.getElem_mem hi))]
    have hplaced' : (place g d).nodes = d.nodes := by
      apply List.ext_getElem
      · simp [place]
      · intro i _ hi
        simp [place, placeFrame_of_complete g _ (hnodes _ (List.getElem_mem hi))]
    calc place g d
        = { d with containers := (place g d).containers, nodes := (place g d).nodes } := rfl
      _ = d := by rw [hplaced, hplaced']
  have hsize : sizeNodes g d = d := by
    have hsized : (d.nodes.map fun n => { n with frame := sizeFrame g n.frame }) = d.nodes := by
      conv_rhs => rw [← List.map_id d.nodes]
      exact List.map_congr_left fun n hn => by rw [sizeFrame_of_complete g (hnodes n hn), id]
    rw [sizeNodes_eq, hsized]
  rw [Layout.apply, hplace, hsize, fitContainers, foldl_fitAt_of_complete g d.nodes hcontainers]

/-- The document after some of the fittings. -/
def partway (g : Grid α) (d : Document α) (done : List Nat) : Document α :=
  { sizeNodes g (place g d) with
    containers := done.foldl (fitAt g (sizeNodes g (place g d)).nodes) (placed g d) }

theorem length_partway (d : Document α) (done : List Nat) :
    (partway g d done).containers.length = d.containers.length := by
  have hlineage := congrArg List.length
    (map_foldl_fitAt (f := Item.lineage) (g := g) (fun _ _ _ => rfl)
      (sizeNodes g (place g d)).nodes done (placed g d))
  rw [map_lineage_placed, List.length_map, List.length_map] at hlineage
  exact hlineage

section Partway

variable {d : Document α} {i : Nat}

theorem exists_container_partway {c : Item α} (hc : d.containers[i]? = some c) (done : List Nat) :
    ∃ c', (partway g d done).containers[i]? = some c' ∧ c.frame.KeptIn c'.frame ∧
      (∀ a, (c'.frame.start a).isSome = true) ∧
      (i ∈ done → ∀ a, (c'.frame.extent a).isSome = true) := by
  have hplaced : (placed g d)[i]? = some { c with frame := placeFrame g i c.frame } := by
    rw [getElem?_placed, hc, Option.map_some]
  obtain ⟨c', hc', hkept, hsized⟩ :=
    exists_foldl_fitAt g (sizeNodes g (place g d)).nodes hplaced done
  refine ⟨c', hc', (keptIn_placeFrame g i c.frame).trans hkept, fun a => ?_, hsized⟩
  apply hkept.isSome_start
  rw [start_placeFrame, Option.isSome_some]

theorem exists_node_partway {n : Node α} (hn : d.nodes[i]? = some n) (done : List Nat) :
    ∃ n', (partway g d done).nodes[i]? = some n' ∧ n.frame.KeptIn n'.frame ∧
      n'.frame.Complete := by
  have hplaced := keptIn_placeFrame g (d.containers.length + i) n.frame
  refine ⟨{ n with
      frame := sizeFrame g (placeFrame g (d.containers.length + i) n.frame) }, ?_,
    hplaced.trans (keptIn_sizeFrame g _), fun a => ⟨?_, ?_⟩⟩
  · simp [partway, sizeNodes_eq, place, hn]
  · rw [start_sizeFrame, start_placeFrame, Option.isSome_some]
  · rw [extent_sizeFrame, Option.isSome_some]

/-- After some of the fittings every item has its coordinates and all that was given, and nothing is
open if every container has been fitted. -/
theorem exists_item_partway {p : Item α} (hp : d.items[i]? = some p) (done : List Nat) :
    ∃ p', (partway g d done).items[i]? = some p' ∧ p.frame.KeptIn p'.frame ∧
      (∀ a, (p'.frame.start a).isSome = true) ∧
      ((∀ j < d.containers.length, j ∈ done) → p'.frame.Complete) := by
  rcases Nat.lt_or_ge i d.containers.length with hi | hi
  · rw [Document.items, List.getElem?_append_left hi] at hp
    obtain ⟨c', hc', hkept, hstart, hsized⟩ := exists_container_partway g hp done
    refine ⟨c', ?_, hkept, hstart, fun hall a => ⟨hstart a, hsized (hall i hi) a⟩⟩
    rw [Document.items, List.getElem?_append_left (by rwa [length_partway]), hc']
  · rw [Document.items, List.getElem?_append_right hi, List.getElem?_map] at hp
    obtain ⟨n, hn, rfl⟩ := Option.map_eq_some_iff.mp hp
    obtain ⟨n', hn', hkept, hcomplete⟩ := exists_node_partway g hn done
    refine ⟨n'.toItem, ?_, hkept, fun a => (hcomplete a).1, fun _ => hcomplete⟩
    rw [Document.items, List.getElem?_append_right (by rwa [length_partway]), length_partway,
      List.getElem?_map, hn', Option.map_some]

theorem exists_of_mem_partway {k : Item α} {done : List Nat} (hk : k ∈ (partway g d done).items) :
    ∃ (i : Nat) (p : Item α), d.items[i]? = some p ∧ (partway g d done).items[i]? = some k := by
  obtain ⟨i, hi⟩ := List.mem_iff_getElem?.mp hk
  have hlength : (partway g d done).items.length = d.items.length := by
    rw [Document.items, Document.items, List.length_append, List.length_append, length_partway]
    simp [partway, sizeNodes, place]
  obtain ⟨hlt, -⟩ := List.getElem?_eq_some_iff.mp hi
  exact ⟨i, _, List.getElem?_eq_getElem (hlength ▸ hlt), hi⟩

end Partway

/-- What a layout does to a document. -/
structure Fills (g : Grid α) (d : Document α) : Prop where
  /-- The way out of every container ends, so the order of the fittings is known. -/
  outward : ∀ c ∈ placed g d, (walk? (Exit.step (placed g d)) ((placed g d).length + 3)
    ⟨enclosing? (placed g d) c, [c.id], 0⟩).isSome = true
  /-- However many fittings are done, the next one finds all coordinates. -/
  ready : ∀ done, ∀ k ∈ (partway g d done).items, ∀ a, (k.frame.start a).isSome = true
  returned : Layout.apply g d = partway g d (sizingOrder g d)
  complete : ∀ k ∈ (Layout.apply g d).items, k.frame.Complete
  /-- What an item has it keeps. -/
  kept : ∀ (i : Nat) (p : Item α), d.items[i]? = some p →
    ∃ p', (Layout.apply g d).items[i]? = some p' ∧ p.frame.KeptIn p'.frame
  /-- Title, links, and in every place of both lists all but the frame are the same. -/
  unframed : (Layout.apply g d).unframed = d.unframed
  again : Layout.apply g (Layout.apply g d) = Layout.apply g d
  flowchart : Render.Mermaid.render? (Layout.apply g d) = Render.Mermaid.render? d
  diagram : ∀ r, Render.D2.render? r (Layout.apply g d) = Render.D2.render? r d

/-- A layout completes every document, whatever encloses what in it and whichever names are
repeated, and changes nothing else. -/
theorem apply_fills (g : Grid α) (d : Document α) : Fills g d := by
  have hall : ∀ j < d.containers.length, j ∈ sizingOrder g d := by
    intro j hj
    have hlength := congrArg List.length (map_lineage_placed g d)
    rw [List.length_map, List.length_map] at hlength
    rwa [sizingOrder, (perm_fittingOrder (placed g d)).mem_iff, List.mem_range, hlength]
  have hcomplete : ∀ k ∈ (Layout.apply g d).items, k.frame.Complete := by
    intro k hk
    obtain ⟨i, p, hp, hi⟩ := exists_of_mem_partway g hk
    obtain ⟨p', hp', -, -, hcomplete⟩ := exists_item_partway g hp (sizingOrder g d)
    obtain rfl : k = p' := Option.some.inj (hi.symm.trans hp')
    exact hcomplete hall
  exact {
    outward := fun c _ => by
      obtain ⟨n, hn⟩ := Option.isSome_iff_exists.mp
        (isSome_walk?_exit (e := ⟨enclosing? (placed g d) c, [c.id], 0⟩)
          fun p hp => (of_enclosing?_eq_some hp).1)
      rw [walk?_mono hn (Nat.le_succ _), Option.isSome_some]
    ready := fun done k hk => by
      obtain ⟨i, p, hp, hi⟩ := exists_of_mem_partway g hk
      obtain ⟨p', hp', -, hstart, -⟩ := exists_item_partway g hp done
      obtain rfl : k = p' := Option.some.inj (hi.symm.trans hp')
      exact hstart
    returned := rfl
    complete := hcomplete
    kept := fun i p hp => by
      obtain ⟨p', hp', hkept, -⟩ := exists_item_partway g hp (sizingOrder g d)
      exact ⟨p', hp', hkept⟩
    unframed := unframed_apply g d
    again := apply_of_complete g hcomplete
    flowchart := by
      rw [← Render.Mermaid.render?_unframed, unframed_apply, Render.Mermaid.render?_unframed]
    diagram := fun r => by
      rw [← Render.D2.render?_unframed, unframed_apply, Render.D2.render?_unframed] }

end Layout

end ArchDiagram
