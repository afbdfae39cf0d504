import ArchDiagram.Proofs.D2Statements

/-!
Keys of D2 diagrams, block by block. The keys inside a container are those of its children, so no
block defines a key twice. At the top stand the keys that are set first as well, and an item may
have one of them as its name.
-/

namespace ArchDiagram.Render

variable {κ : Type} {α : Type}

/-- The keys that a drawing puts right inside a block, which is given by the keys of the blocks open
there, the innermost first. -/
def keysIn [DecidableEq κ] (block : List κ) (ps : List (Place κ)) : List κ :=
  (ps.filter (·.around = block)).map (·.key)

/-- The items right inside a container, or those at the top. -/
def children (d : Document α) (parent : Option String) : List (Item α) :=
  d.items.filter (·.parent == parent)

theorem mem_children {d : Document α} {parent : Option String} {i : Item α} :
    i ∈ children d parent ↔ i ∈ d.items ∧ i.parent = parent := by
  rw [children, List.mem_filter, beq_iff_eq]

section Keys

variable {d : Document α} {name linkEnd : String → κ} {around : String → List κ}
  {head items : List (Place κ)} {sts : List (Stroke κ)}

/-- The blocks around items are the top and the containers. -/
theorem Draws.block_cases (h : Draws d name linkEnd around head items sts) (hd : d.Resolved)
    {p : Place κ} (hp : p ∈ items) :
    p.around = [] ∨ ∃ c ∈ d.containers, p.around = name c.id :: around c.id := by
  obtain ⟨i, hi, haround⟩ : ∃ i ∈ d.items, p.around = around i.id := by
    rcases List.mem_append.mp (h.once.mem_iff.mp hp) with hp | hp
    · obtain ⟨c, hc, rfl⟩ := List.mem_map.mp hp
      exact ⟨c, List.mem_append_left _ hc, rfl⟩
    · obtain ⟨n, hn, rfl⟩ := List.mem_map.mp hp
      exact ⟨n.toItem, Document.toItem_mem_items hn, rfl⟩
  rw [haround, h.inside i hi]
  cases hparent : i.parent with
  | none => exact .inl rfl
  | some p =>
    obtain ⟨c, hc, rfl⟩ := List.mem_map.mp (hd.parents i hi p hparent)
    exact .inr ⟨c, hc, rfl⟩

variable [DecidableEq κ]

theorem keysIn_append (block : List κ) (ps qs : List (Place κ)) :
    keysIn block (ps ++ qs) = keysIn block ps ++ keysIn block qs := by
  rw [keysIn, List.filter_append, List.map_append]
  rfl

theorem keysIn_perm (block : List κ) {ps qs : List (Place κ)} (h : ps.Perm qs) :
    (keysIn block ps).Perm (keysIn block qs) :=
  (h.filter _).map _

theorem keysIn_sublist (block : List κ) (ps : List (Place κ)) :
    (keysIn block ps).Sublist (ps.map (·.key)) :=
  List.filter_sublist.map _

/-- Items at the top are in no other block. -/
theorem keysIn_top (block ks : List κ) :
    keysIn block (ks.map (⟨[], ·, false⟩)) = if block = [] then ks else [] := by
  split
  · rename_i hblock
    rw [keysIn, List.filter_eq_self.mpr (by simp [hblock]), List.map_map]
    exact List.map_id ks
  · rename_i hblock
    rw [keysIn, List.filter_eq_nil_iff.mpr (by simp [Ne.symm hblock]), List.map_nil]

theorem keysIn_placesOf (block : List κ) :
    keysIn block (placesOf d name around) =
      (d.items.filter fun i => around i.id = block).map fun i => name i.id := by
  simp only [placesOf, Document.items, keysIn_append, List.filter_append, List.map_append]
  congr 1 <;> simp only [keysIn, List.filter_map, List.map_map] <;> rfl

/-- The items in a block are given by its keys when the parent of an item decides whether the block
is right around it. -/
theorem Draws.keysIn_items (h : Draws d name linkEnd around head items sts) {block : List κ}
    {parent : Option String} (hblock : ∀ i ∈ d.items, around i.id = block ↔ i.parent = parent) :
    (keysIn block items).Perm ((children d parent).map fun i => name i.id) := by
  have hsame : d.items.filter (fun i => around i.id = block) = children d parent := by
    apply List.filter_congr
    intro i hi
    rw [Bool.eq_iff_iff, decide_eq_true_eq, beq_iff_eq]
    exact hblock i hi
  rw [← hsame, ← keysIn_placesOf]
  exact keysIn_perm block h.once

theorem Draws.keysIn_nil (h : Draws d name linkEnd around head items sts) :
    (keysIn [] items).Perm ((children d none).map fun i => name i.id) := by
  apply h.keysIn_items
  intro i hi
  rw [h.inside i hi]
  cases i.parent <;> simp

theorem Draws.keysIn_container (h : Draws d name linkEnd around head items sts) (hd : d.Resolved)
    (hname : ∀ i ∈ d.items, ∀ j ∈ d.items, name i.id = name j.id → i.id = j.id) {c : Item α}
    (hc : c ∈ d.containers) :
    (keysIn (name c.id :: around c.id) items).Perm
      ((children d (some c.id)).map fun i => name i.id) := by
  apply h.keysIn_items
  intro i hi
  rw [h.inside i hi]
  cases hparent : i.parent with
  | none => simp
  | some p =>
    obtain ⟨b, hb, rfl⟩ := List.mem_map.mp (hd.parents i hi p hparent)
    constructor
    · -- the innermost open block names the parent
      intro heq
      have hid := hname b (List.mem_append_left _ hb) c (List.mem_append_left _ hc)
        (List.cons.inj heq).1
      rw [hid]
    · intro heq
      rw [Option.some.inj heq]

end Keys

namespace D2

open Text Source

/-- The keys of a diagram, block by block. The keys at the top are those set first and those of the
items without a parent; the keys inside a container are those of its children. -/
structure KeysByBlock (d : Document α) (around : String → List (List Char))
    (ps : List (Place (List Char))) : Prop where
  enclosing : ∀ i ∈ d.items, around i.id =
    match i.parent with
    | none => []
    | some p => key p :: around p
  top : (keysIn [] ps).Perm (headKeys d ++ (children d none).map fun i => key i.id)
  inside : ∀ c ∈ d.containers, (keysIn (key c.id :: around c.id) ps).Perm
    ((children d (some c.id)).map fun i => key i.id)
  blocks : ∀ p ∈ ps, p.around = [] ∨ ∃ c ∈ d.containers, p.around = key c.id :: around c.id

/-- A document that was read is drawn by the statements of its diagram, whatever its title. -/
theorem draws_statements {defaultTitle source : String} {d : Document Binary64}
    (hparse : parse defaultTitle source = .success d) (r : Icon.Registry) :
    ∃ text after around items, render? r d = some (text, after) ∧
      Draws d key (path d) around ((headKeys d).map (⟨[], ·, false⟩)) items
        ((statements text.toList).map readLine) := by
  have hp := plain_of_parse hparse
  have hd := resolved_of_parse hparse
  have hparent : ∀ i ∈ d.items, parentOfId d i.id = i.parent := fun i hi => parentOfId_eq hd hi
  obtain ⟨trail, htrail⟩ := exists_trails hd hparent
  obtain ⟨es, hes, hshows, hstatements⟩ := exists_outline hparse
  have hdraws := draws_of_reads hd hparent htrail
    (fun i hi j hj => key_injective (hp.ids i hi) (hp.ids j hj)) (reads_shapes hes)
    (fun st => isLink_of_mem_shapes) (path d)
  rw [← map_readLine hp hd hshows r, ← hstatements r,
    ← String.toList_ofList (l := unlines _)] at hdraws
  refine ⟨_, (entryLines r es).2, _, _, ?_, hdraws⟩
  rw [render?, hes]
  rfl

/-- The keys set first are no keys of items at the top, unless one of these has such a name. -/
theorem nodup_top_iff {d : Document α} (hids : ∀ i ∈ d.items, isIdentifier i.id.toList = true)
    (hd : d.Resolved) :
    (headKeys d ++ (children d none).map fun i => key i.id).Nodup ↔
      ∀ i ∈ d.items, i.parent = none →
        i.id ≠ "direction" ∧ (d.title.isEmpty = false → i.id ≠ "title") := by
  have hhead : (headKeys d).Nodup := by
    unfold headKeys
    split <;> decide
  have hmem {k : List Char} : k ∈ headKeys d ↔
      k = key "direction" ∨ d.title.isEmpty = false ∧ k = key "title" := by
    have hdirection : key "direction" = "direction".toList := by decide
    have htitle : key "title" = "title".toList := by decide
    rw [headKeys, hdirection, htitle]
    cases d.title.isEmpty <;> simp
  have hkey {id : String} (hid : isIdentifier id.toList = true) {i : Item α} (hi : i ∈ d.items) :
      key i.id = key id ↔ i.id = id :=
    ⟨key_injective (hids i hi) hid, congrArg key⟩
  have hchildren : ((children d none).map fun i => key i.id).Nodup := by
    have hall : (d.items.map fun i => key i.id).Nodup := by
      apply List.Nodup.map_on _ (hd.distinct.of_map _)
      intro i hi j hj heq
      exact List.inj_on_of_nodup_map hd.distinct hi hj (key_injective (hids i hi) (hids j hj) heq)
    exact hall.sublist (List.filter_sublist.map _)
  rw [List.nodup_append]
  constructor
  · rintro ⟨-, -, hapart⟩ i hi hparent
    have hi' : key i.id ∈ (children d none).map fun i => key i.id :=
      List.mem_map_of_mem (f := fun i : Item α => key i.id) (mem_children.mpr ⟨hi, hparent⟩)
    refine ⟨fun heq => ?_, fun htitle heq => ?_⟩
    · exact hapart _ (hmem.mpr (.inl ((hkey (by decide) hi).mpr heq))) _ hi' rfl
    · exact hapart _ (hmem.mpr (.inr ⟨htitle, (hkey (by decide) hi).mpr heq⟩)) _ hi' rfl
  · intro h
    refine ⟨hhead, hchildren, fun k hk k' hk' heq => ?_⟩
    obtain ⟨i, hi, rfl⟩ := List.mem_map.mp hk'
    obtain ⟨hitem, hparent⟩ := mem_children.mp hi
    obtain ⟨hdirection, htitle⟩ := h i hitem hparent
    rcases hmem.mp (heq ▸ hk) with hkey' | ⟨hempty, hkey'⟩
    · exact hdirection ((hkey (by decide) hitem).mp hkey')
    · exact htitle hempty ((hkey (by decide) hitem).mp hkey')

/-- No block of a diagram defines a key twice, but the top may: an item there can have the name of a
key that is set first. It does not define one twice exactly when no item at the top is named
`direction`, nor `title` below a title. -/
theorem keys_of_diagram {defaultTitle source : String} {d : Document Binary64}
    (hparse : parse defaultTitle source = .success d) (r : Icon.Registry) :
    ∃ text after around ps, render? r d = some (text, after) ∧
      places? [] ((statements text.toList).map readLine) = some ps ∧ KeysByBlock d around ps ∧
      (∀ block, block ≠ [] → (keysIn block ps).Nodup) ∧
      ((keysIn [] ps).Nodup ↔ ∀ i ∈ d.items, i.parent = none →
        i.id ≠ "direction" ∧ (d.title.isEmpty = false → i.id ≠ "title")) := by
  have hids := (plain_of_parse hparse).ids
  have hd := resolved_of_parse hparse
  have hnames : ∀ i ∈ d.items, ∀ j ∈ d.items, key i.id = key j.id → i.id = j.id :=
    fun i hi j hj => key_injective (hids i hi) (hids j hj)
  obtain ⟨text, after, around, items, hrender, hdraws⟩ := draws_statements hparse r
  have htop : (keysIn [] ((headKeys d).map (⟨[], ·, false⟩) ++ items)).Perm
      (headKeys d ++ (children d none).map fun i => key i.id) := by
    rw [keysIn_append, keysIn_top, if_pos rfl]
    exact hdraws.keysIn_nil.append_left _
  have hinner (block : List (List Char)) (hblock : block ≠ []) :
      keysIn block ((headKeys d).map (⟨[], ·, false⟩) ++ items) = keysIn block items := by
    rw [keysIn_append, keysIn_top, if_neg hblock, List.nil_append]
  refine ⟨text, after, around, _, hrender, hdraws.balanced, ⟨hdraws.inside, htop, ?_, ?_⟩, ?_, ?_⟩
  · intro c hc
    rw [hinner _ (List.cons_ne_nil _ _)]
    exact hdraws.keysIn_container hd hnames hc
  · intro p hp
    rcases List.mem_append.mp hp with hp | hp
    · obtain ⟨k, -, rfl⟩ := List.mem_map.mp hp
      exact .inl rfl
    · exact hdraws.block_cases hd hp
  · intro block hblock
    rw [hinner block hblock]
    exact hdraws.distinct.sublist (keysIn_sublist block items)
  · rw [htop.nodup_iff]
    exact nodup_top_iff hids hd

/-- A child may be named like a key that is set at the top, and the title may have two lines. -/
theorem keys_of_diagram_nested :
    ∃ d text after ps,
      parse "Two\nlines" ("container c: \"C\" \x7b\nnode title: \"T\"\n" ++
          "node direction: \"D\"\n\x7d\nnode m: \"M\"") = .success d ∧
        render? {} d = some (text, after) ∧
        places? [] ((statements text.toList).map readLine) = some ps ∧
        ∀ block, (keysIn block ps).Nodup := by
  have hcheck : (parse "Two\nlines" ("container c: \"C\" \x7b\nnode title: \"T\"\n" ++
      "node direction: \"D\"\n\x7d\nnode m: \"M\"")).document?.any (fun d =>
        d.items.all fun i => i.parent = none → i.id ≠ "direction" ∧ i.id ≠ "title") = true := by
    decide +kernel
  obtain ⟨d, hd, hnames⟩ := (Option.any_eq_true _ _).mp hcheck
  simp only [List.all_eq_true, decide_eq_true_eq] at hnames
  have hread := parse_eq_success_of_document? hd
  obtain ⟨text, after, around, ps, hrender, hplaces, -, hinner, htop⟩ := keys_of_diagram hread {}
  refine ⟨d, text, after, ps, hread, hrender, hplaces, fun block => ?_⟩
  by_cases hblock : block = []
  · rw [hblock]
    exact htop.mpr fun i hi hparent => (hnames i hi hparent).imp_right fun hne _ => hne
  · exact hinner block hblock

/-- A node named `direction` defines a key that the diagram has set already. -/
theorem keys_of_diagram_direction :
    ∃ d text after ps,
      parse "Untitled Diagram" "node direction: \"D\"" = .success d ∧
        render? {} d = some (text, after) ∧
        places? [] ((statements text.toList).map readLine) = some ps ∧
        keysIn [] ps = ["direction".toList, "title".toList, "direction".toList] ∧
        ¬(keysIn [] ps).Nodup := by
  refine ⟨{ title := "Untitled Diagram", nodes := [{ id := "direction", label := "D" }] },
    "direction: right\n\ntitle: \"Untitled Diagram\" \x7b near: top-center; shape: text \x7d\n\n" ++
      "direction: \"D\"\n", {},
    [⟨[], "direction".toList, false⟩, ⟨[], "title".toList, false⟩,
      ⟨[], "direction".toList, false⟩], rfl, rfl, ?_, ?_, ?_⟩
  · decide +kernel
  · decide
  · decide

end D2

end ArchDiagram.Render
