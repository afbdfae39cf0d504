import ArchDiagram.Proofs.Fitting
import ArchDiagram.Proofs.Parsed
import ArchDiagram.Proofs.Placement
import Mathlib.Tactic.Linarith

/-!
Sizes of containers. In the document that a layout gives, a container without a size of its own ends
a padding after the farthest of the items directly inside it, as these are in that document; without
items inside it has the default size.
-/

namespace ArchDiagram

variable {α : Type}

/-- The items right inside a container. -/
def Document.inside (d : Document α) (id : String) : List (Item α) :=
  d.items.filter (·.parent == some id)

/-- Where a frame ends along an axis. A size of zero stands for the default. -/
def Frame.edge? (default : ℚ) (r : Frame ℚ) (a : Axis) : Option ℚ := do
  let start ← r.start a
  let size ← r.extent a
  return start + if size = 0 then default else size

/-- The size of a container at `start` with items inside it that end at `edges`: up to the farthest
of them, if that is beyond the start, and a padding of 20. -/
def Fitted (default start : ℚ) (edges : List ℚ) (size : ℚ) : Prop :=
  (edges = [] ∧ size = default) ∨
    ∃ m ∈ edges, (∀ e ∈ edges, e ≤ m) ∧ size = max (m - start) 0 + 20

theorem Fitted.pos {default start size : ℚ} {edges : List ℚ} (h : Fitted default start edges size)
    (hdefault : 0 < default) : 0 < size := by
  rcases h with ⟨-, rfl⟩ | ⟨m, -, -, rfl⟩
  · exact hdefault
  · have := le_max_right (m - start) 0
    linarith

/-- A container that is fitted ends a padding after everything inside it. -/
theorem Fitted.edge_le {default start size edge : ℚ} {edges : List ℚ}
    (h : Fitted default start edges size) (hedge : edge ∈ edges) : edge + 20 ≤ start + size := by
  rcases h with ⟨rfl, -⟩ | ⟨m, -, hle, rfl⟩
  · cases hedge
  · have := hle edge hedge
    have := le_max_left (m - start) 0
    linarith

/-- Along an axis a container is fitted round the items right inside it. -/
def SizedAlong (g : Grid ℚ) (d : Document ℚ) (c : Item ℚ) (a : Axis) : Prop :=
  ∃ start size edges, c.frame.start a = some start ∧ c.frame.extent a = some size ∧
    (d.inside c.id).map (·.frame.edge? (g.nodeSize a) a) = edges.map some ∧
      Fitted (g.nodeSize a) start edges size

namespace Layout

/-- Nothing is its own parent, so the children that a fitting looks at are all the items right
inside. -/
theorem children_eq_inside {d : Document α} (hids : (d.items.map (·.id)).Nodup)
    (hacyclic : Acyclic d.containers) {c : Item α} (hc : c ∈ d.containers) :
    children d.containers d.nodes c = d.inside c.id := by
  apply List.filter_congr
  intro k hk
  have hother (hparent : k.parent = some c.id) : k.id ≠ c.id := by
    intro heq
    have hsame := List.inj_on_of_nodup_map hids hk (List.mem_append_left _ hc) heq
    exact hacyclic c hc (.single ⟨c, hc, rfl, hsame ▸ hparent⟩)
  by_cases hparent : k.parent = some c.id <;> simp [hparent, hother]

section Scalar

variable [Scalar α] (g : Grid α)

theorem map_lineage_containers_apply (d : Document α) :
    (Layout.apply g d).containers.map Item.lineage = d.containers.map Item.lineage := by
  have hcontainers := congrArg (·.containers.map Item.lineage) (unframed_apply g d)
  simp only [Document.unframed, List.map_map] at hcontainers
  exact hcontainers

theorem map_lineage_items_apply (d : Document α) :
    (Layout.apply g d).items.map Item.lineage = d.items.map Item.lineage := by
  have hnodes := congrArg (·.nodes.map (·.toItem.lineage)) (unframed_apply g d)
  simp only [Document.unframed, List.map_map] at hnodes
  rw [Document.items, Document.items, List.map_append, List.map_append, List.map_map, List.map_map]
  exact congrArg₂ (· ++ ·) (map_lineage_containers_apply g d) hnodes

/-- The containers of a document as they are when they are fitted. -/
def placed (d : Document α) : List (Item α) :=
  (sizeNodes g (place g d)).containers

theorem getElem?_placed (d : Document α) (i : Nat) :
    (placed g d)[i]? =
      d.containers[i]?.map fun c => { c with frame := placeFrame g i c.frame } := by
  simp [placed, sizeNodes, place]

theorem map_lineage_placed (d : Document α) :
    (placed g d).map Item.lineage = d.containers.map Item.lineage := by
  apply List.ext_getElem?
  intro i
  rw [List.getElem?_map, List.getElem?_map, getElem?_placed, Option.map_map]
  rfl

/-- The default size is that of a node that has none. -/
theorem extent_of_mem_nodes {d : Document α} {n : Node α} (hn : n ∈ (Layout.apply g d).nodes)
    (a : Axis) :
    ∃ m ∈ d.nodes, n.frame.extent a = some ((m.frame.extent a).getD (g.nodeSize a)) := by
  obtain ⟨m, hm, rfl⟩ := List.mem_map.mp hn
  obtain ⟨i, hi, rfl⟩ := List.mem_mapIdx.mp hm
  refine ⟨d.nodes[i], List.getElem_mem hi, ?_⟩
  cases a <;> rfl

/-- Where an item ends, as a container around it is fitted. -/
def edge (a : Axis) (r : Frame α) : α :=
  coordinate (r.start a) + sizeOr (g.nodeSize a) (r.extent a)

theorem extent_fitFrame (cs : List (Item α)) (nodes : List (Node α)) (c : Item α) (a : Axis) :
    (fitFrame g cs nodes c).extent a = some ((c.frame.extent a).getD (sizeOr (g.nodeSize a)
      (extent? (coordinate (c.frame.start a))
        ((children cs nodes c).map fun k => edge g a k.frame)))) := by
  cases a
  · simp only [fitFrame, List.map_map]
    rfl
  · simp only [fitFrame, List.map_map]
    rfl

variable {d : Document α} (hf : Forest d.containers) (hids : (d.items.map (·.id)).Nodup)
include hf hids

/-- In whatever arithmetic, a container has the size that is given or fits round the items inside it
as a layout leaves them. -/
theorem exists_container_apply {i : Nat} {c : Item α} (hc : d.containers[i]? = some c) :
    ∃ c', (Layout.apply g d).containers[i]? = some c' ∧ c'.lineage = c.lineage ∧
      ∀ a, c'.frame.extent a = some ((c.frame.extent a).getD (sizeOr (g.nodeSize a)
        (extent? (coordinate (c'.frame.start a))
          (((Layout.apply g d).inside c'.id).map fun k => edge g a k.frame)))) := by
  set e := Layout.apply g d with he
  have hfit := containers_fitContainers g (sizeNodes g (place g d))
    (hf.of_lineage (map_lineage_placed g d).symm)
  have hc' : e.containers[i]? = some { c with
      frame := fitFrame g e.containers e.nodes { c with frame := placeFrame g i c.frame } } := by
    have hfound : (placed g d)[i]? = some { c with frame := placeFrame g i c.frame } := by
      rw [getElem?_placed, hc, Option.map_some]
    change (fitContainers g (sizeNodes g (place g d))).containers[i]? = _
    rw [hfit, List.getElem?_map]
    change (placed g d)[i]?.map _ = _
    rw [hfound]
    rfl
  have hids' : (e.items.map (·.id)).Nodup := by
    have hsame := congrArg (List.map Prod.fst) (map_lineage_items_apply g d)
    rw [List.map_map, List.map_map] at hsame
    exact hsame ▸ hids
  have hforest : Forest e.containers := hf.of_lineage (map_lineage_containers_apply g d).symm
  have hinside := children_eq_inside hids' hforest.acyclic (List.mem_of_getElem? hc')
  change children e.containers e.nodes { c with frame := placeFrame g i c.frame } =
    e.inside c.id at hinside
  refine ⟨_, hc', rfl, fun a => ?_⟩
  change (fitFrame g e.containers e.nodes _).extent a = _
  rw [extent_fitFrame, extent_placeFrame, hinside, start_fitFrame]

/-- A layout leaves no size open. -/
theorem exists_extent_of_mem {k : Item α} (hk : k ∈ (Layout.apply g d).items) (a : Axis) :
    ∃ size, k.frame.extent a = some size := by
  rcases List.mem_append.mp hk with hk | hk
  · obtain ⟨i, hi⟩ := List.mem_iff_getElem?.mp hk
    obtain ⟨c, hc, -⟩ := exists_of_lineage (map_lineage_containers_apply g d) hi
    obtain ⟨c', hc', -, hextent⟩ := exists_container_apply g hf hids hc
    rw [hi] at hc'
    cases hc'
    exact ⟨_, hextent a⟩
  · obtain ⟨n, hn, rfl⟩ := List.mem_map.mp hk
    obtain ⟨m, -, hextent⟩ := extent_of_mem_nodes g hn a
    exact ⟨_, hextent⟩

end Scalar

section Exact

theorem greatest?_eq_max? (es : List ℚ) : greatest? es = es.max? := by
  have hmax : (fun m b : ℚ => if Scalar.less m b then b else m) = max := by
    funext m b
    change (if decide (m < b) = true then b else m) = _
    rw [max_def]
    grind
  cases es with
  | nil => rfl
  | cons e es => rw [greatest?, hmax, List.max?_cons']

theorem fitted_sizeOr (default start : ℚ) (edges : List ℚ) :
    Fitted default start edges (sizeOr default (extent? start edges)) := by
  cases hm : edges.max? with
  | none =>
    have hnil := List.max?_eq_none_iff.mp hm
    subst hnil
    exact .inl ⟨rfl, rfl⟩
  | some m =>
    obtain ⟨hmem, hle⟩ := List.max?_eq_some_iff.mp hm
    have hsize : extent? start edges = some (max (m - start) 0 + 20) := by
      rw [extent?, greatest?_eq_max?, hm, Option.map_some]
      change some ((if decide (m - start < (0 : ℕ)) = true then ((0 : ℕ) : ℚ) else m - start) +
        (20 : ℕ)) = _
      rw [max_def]
      grind
    have hpos : max (m - start) 0 + 20 ≠ 0 := by
      have := le_max_right (m - start) 0
      linarith
    refine .inr ⟨m, hmem, hle, ?_⟩
    rw [hsize]
    exact if_neg (by simpa [Scalar.isZero] using hpos)

variable {g : Grid ℚ} {d : Document ℚ} (hf : Forest d.containers)
  (hids : (d.items.map (·.id)).Nodup)
include hf hids

/-- A container without a size of its own is fitted round the items inside it. -/
theorem exists_sized {i : Nat} {c : Item ℚ} (hc : d.containers[i]? = some c) :
    ∃ c', (Layout.apply g d).containers[i]? = some c' ∧ c'.lineage = c.lineage ∧
      ∀ a, c.frame.extent a = none → SizedAlong g (Layout.apply g d) c' a := by
  obtain ⟨c', hc', hlineage, hextent⟩ := exists_container_apply g hf hids hc
  refine ⟨c', hc', hlineage, fun a hopen => ?_⟩
  have hcomplete {k : Item ℚ} (hk : k ∈ (Layout.apply g d).items) :
      k.frame.edge? (g.nodeSize a) a = some (edge g a k.frame) := by
    obtain ⟨size, hsize⟩ := exists_extent_of_mem g hf hids hk a
    obtain ⟨start, hstart⟩ := exists_start_of_mem g hk a
    simp [Frame.edge?, edge, coordinate, sizeOr, Scalar.isZero, hsize, hstart]
  obtain ⟨start, hstart⟩ :=
    exists_start_of_mem g (List.mem_append_left _ (List.mem_of_getElem? hc')) a
  have hsize := hextent a
  rw [hopen, Option.getD_none, hstart] at hsize
  refine ⟨start, _, _, hstart, hsize, ?_, fitted_sizeOr _ _ _⟩
  rw [List.map_map]
  apply List.map_congr_left
  intro k hk
  exact hcomplete (List.mem_filter.mp hk).1

end Exact

/-- The positions of the containers in the order in which a layout fits them. -/
def sizingOrder [Scalar α] (g : Grid α) (d : Document α) : List Nat :=
  fittingOrder (placed g d)

end Layout

namespace Source

open Layout

theorem forest_of_parse {defaultTitle source : String} {d : Document Binary64}
    (h : parse defaultTitle source = .success d) : Forest d.containers := by
  have hresolved := resolved_of_parse h
  refine ⟨fun c hc heq => ?_, hresolved.nodup_containerIds, hresolved.acyclic⟩
  have hid := (plain_of_parse h).ids c (List.mem_append_left _ hc)
  rw [heq] at hid
  cases hid

theorem map_lineage_exact (d : Document Binary64) :
    d.exact.containers.map Item.lineage = d.containers.map Item.lineage := by
  rw [Document.exact, Document.map, List.map_map]
  rfl

theorem forest_exact_of_parse {defaultTitle source : String} {d : Document Binary64}
    (h : parse defaultTitle source = .success d) : Forest d.exact.containers :=
  (forest_of_parse h).of_lineage (map_lineage_exact d).symm

theorem nodup_ids_exact_of_parse {defaultTitle source : String} {d : Document Binary64}
    (h : parse defaultTitle source = .success d) : (d.exact.items.map (·.id)).Nodup := by
  rw [Document.exact, Document.items_map, List.map_map]
  exact (resolved_of_parse h).distinct

/-- In a document that was read, whatever the configuration, every container without a width or a
height is fitted round the items right inside it, as they are in the end. Every container is fitted
once, and after all containers inside it. -/
theorem sizes_of_parse {defaultTitle source : String} {d : Document Binary64}
    (h : parse defaultTitle source = .success d) (g : Grid ℚ) :
    (∀ (i : Nat) (c : Item Binary64), d.containers[i]? = some c →
      ∃ c', (Layout.apply g d.exact).containers[i]? = some c' ∧ c'.lineage = c.lineage ∧
        ∀ a, c.frame.extent a = none → SizedAlong g (Layout.apply g d.exact) c' a) ∧
      (sizingOrder g d.exact).Perm (List.range d.containers.length) ∧
      ∀ (i j : Nat) (k c : Item Binary64), d.containers[i]? = some k → d.containers[j]? = some c →
        Relation.TransGen (ParentOf d.containers) k.id c.id →
          [i, j].Sublist (sizingOrder g d.exact) := by
  have hf := forest_exact_of_parse h
  have hplaced : (placed g d.exact).map Item.lineage = d.containers.map Item.lineage :=
    (map_lineage_placed g d.exact).trans (map_lineage_exact d)
  refine ⟨fun i c hc => ?_, ?_, fun i j k c hk hc hinside => ?_⟩
  · have hexact : d.exact.containers[i]? = some (c.map Binary64.exact) := by
      simp [Document.exact, Document.map, hc]
    obtain ⟨c', hc', hlineage, hsized⟩ :=
      exists_sized (g := g) hf (nodup_ids_exact_of_parse h) hexact
    refine ⟨c', hc', hlineage, fun a hopen => hsized a ?_⟩
    cases a <;> exact congrArg (Option.map Binary64.exact) hopen
  · have hlength := congrArg List.length hplaced
    rw [List.length_map, List.length_map] at hlength
    exact hlength ▸ perm_fittingOrder (placed g d.exact)
  · obtain ⟨k', hk', hkid, -⟩ := exists_of_lineage hplaced.symm hk
    obtain ⟨c', hc', hcid, -⟩ := exists_of_lineage hplaced.symm hc
    apply sublist_fittingOrder (hf.of_lineage (map_lineage_placed g d.exact).symm) hk' hc'
    rwa [parentOf_congr hplaced, hkid, hcid]

/-- A container that comes before the one around it is fitted first all the same. -/
theorem sizes_of_parse_inner_first :
    ∃ d, parse "Plan" "container a: \"A\"\ncontainer b: \"B\" parent=a\nnode n: \"N\" parent=b" =
        .success d ∧
      [1, 0].Sublist (sizingOrder ⟨120, 80, 200, 150, 0⟩ d.exact) ∧
      ∃ c, (Layout.apply ⟨120, 80, 200, 150, 0⟩ d.exact).containers[0]? = some c ∧
        ∀ x, SizedAlong ⟨120, 80, 200, 150, 0⟩
          (Layout.apply ⟨120, 80, 200, 150, 0⟩ d.exact) c x := by
  have hparse : parse "Plan"
      "container a: \"A\"\ncontainer b: \"B\" parent=a\nnode n: \"N\" parent=b" = .success
        { title := "Plan"
          containers := [{ id := "a", label := "A" }, { id := "b", label := "B", parent := "a" }]
          nodes := [{ id := "n", label := "N", parent := "b" }] } :=
    rfl
  obtain ⟨hsizes, -, horder⟩ := sizes_of_parse hparse ⟨120, 80, 200, 150, 0⟩
  obtain ⟨c, hc, -, hsized⟩ := hsizes 0 _ rfl
  refine ⟨_, hparse, horder 1 0 _ _ rfl rfl ?_, c, hc, fun x => hsized x ?_⟩
  · exact .single ⟨_, List.mem_cons_of_mem _ List.mem_cons_self, rfl, rfl⟩
  · cases x <;> rfl

end Source

end ArchDiagram
