import ArchDiagram.Proofs.Cycles
import ArchDiagram.Proofs.Reread
import ArchDiagram.Proofs.Strokes
import Mathlib.Data.List.Flatten

/-!
What outlines draw. The strokes of an outline are complete in themselves, and their places are those
where an item fits: right inside its parent, along a trail of open containers. When references lead
where they should, a trail leads to every item and only one, so the outline has every item at one
place, whatever names the items are drawn under.
-/

namespace ArchDiagram.Render

variable {κ : Type} {α : Type} {parentOf : Item α → Option String} {d : Document α}

theorem newline_not_mem_indent (n : Nat) : '\n' ∉ indent n := by
  simp [indent]

theorem isBlank_of_mem_indent {n : Nat} {c : Char} (h : c ∈ indent n) : Text.isBlank c = true := by
  rw [List.eq_of_mem_replicate h]
  rfl

/-- The stroke of a mark, when items are drawn under names. -/
def Mark.stroke (name : String → κ) : Mark α → Stroke κ
  | opened c => .opened (name c.id)
  | node n => .item (name n.id)
  | closed => .closed

theorem Mark.isLink_stroke (name : String → κ) (m : Mark α) : (m.stroke name).isLink = false := by
  cases m <;> rfl

theorem Mark.key?_stroke (name : String → κ) (m : Mark α) :
    (m.stroke name).key? = m.id?.map name := by
  cases m <;> rfl

theorem Mark.isShape_stroke (name : String → κ) (m : Mark α) : (m.stroke name).isShape = true := by
  cases m <;> rfl

/-- What a mark shows is part of the document. -/
def Mark.Shows (d : Document α) : Mark α → Prop
  | opened c => c ∈ d.containers
  | node n => n ∈ d.nodes
  | closed => True

theorem map_of_mapM_eq_some {β γ : Type} {f : β → Option γ} {bs : List β} {cs : List γ}
    (h : bs.mapM f = some cs) : bs.map f = cs.map some := by
  induction bs generalizing cs with
  | nil =>
    rw [List.mapM_nil] at h
    cases h
    rfl
  | cons b bs ih =>
    rw [List.mapM_cons] at h
    obtain ⟨c, hc, h⟩ := Option.bind_eq_some_iff.mp h
    obtain ⟨cs, hcs, h⟩ := Option.bind_eq_some_iff.mp h
    cases h
    simp [hc, ih hcs]

/-- An outline lists the blocks of the containers at its place, then the nodes there. -/
theorem exists_of_outlineWithin? {levels depth : Nat} {parent : Option String}
    {entries : List (Entry α)}
    (h : outlineWithin? parentOf d (levels + 1) depth parent = some entries) :
    ∃ inside : Item α → List (Entry α),
      (∀ c ∈ d.containers.filter (parentOf · == parent),
        outlineWithin? parentOf d levels (depth + 1) (some c.id) = some (inside c)) ∧
      entries =
        (d.containers.filter (parentOf · == parent)).flatMap
            (fun c => enclosed depth c (inside c)) ++
          (d.nodes.filter (parentOf ·.toItem == parent)).map (⟨depth, .node ·⟩) := by
  rw [outlineWithin?_succ] at h
  obtain ⟨inner, hinner, rfl⟩ := Option.map_eq_some_iff.mp h
  set inside := fun c : Item α =>
    (outlineWithin? parentOf d levels (depth + 1) (some c.id)).getD [] with hinside
  have hmap := map_of_mapM_eq_some hinner
  have hsome : ∀ c ∈ d.containers.filter (parentOf · == parent),
      outlineWithin? parentOf d levels (depth + 1) (some c.id) = some (inside c) := by
    intro c hc
    obtain ⟨es, -, hes⟩ := List.mem_map.mp (hmap ▸ List.mem_map_of_mem hc)
    obtain ⟨held, hheld, -⟩ := Option.map_eq_some_iff.mp hes.symm
    rw [hinside]
    simp [hheld]
  have hlists : inner = (d.containers.filter (parentOf · == parent)).map
      (fun c => enclosed depth c (inside c)) := by
    apply List.map_injective_iff.mpr (Option.some_injective _)
    rw [← hmap, List.map_map]
    apply List.map_congr_left
    intro c hc
    rw [hsome c hc]
    rfl
  refine ⟨inside, hsome, ?_⟩
  rw [hlists, List.flatMap_def]

/-- Outlines show nothing that the document does not have. -/
theorem shows_of_outlineWithin? {levels depth : Nat} {parent : Option String}
    {entries : List (Entry α)}
    (h : outlineWithin? parentOf d levels depth parent = some entries) :
    ∀ e ∈ entries, e.mark.Shows d := by
  induction levels generalizing depth parent entries with
  | zero => simp [outlineWithin?] at h
  | succ levels ih =>
    obtain ⟨inside, hinside, rfl⟩ := exists_of_outlineWithin? h
    intro e he
    rcases List.mem_append.mp he with he | he
    · obtain ⟨c, hc, he⟩ := List.mem_flatMap.mp he
      have hmem : c ∈ d.containers := (List.mem_filter.mp hc).1
      simp only [enclosed, List.cons_append, List.mem_cons, List.mem_append, List.not_mem_nil,
        or_false] at he
      rcases he with rfl | he | rfl
      · exact hmem
      · exact ih (hinside c hc) e he
      · trivial
    · obtain ⟨n, hn, rfl⟩ := List.mem_map.mp he
      exact (List.mem_filter.mp hn).1

/-- The places of what stands inside the open containers `cs`, down to a number of levels. -/
def held (parentOf : Item α → Option String) (d : Document α) :
    Nat → List (Item α) → List (Place (Item α))
  | 0, _ => []
  | levels + 1, cs =>
    (d.containers.filter (parentOf · == cs.head?.map (·.id))).flatMap
        (fun c => ⟨cs, c, true⟩ :: held parentOf d levels (c :: cs)) ++
      (d.nodes.filter (parentOf ·.toItem == cs.head?.map (·.id))).map (⟨cs, ·.toItem, false⟩)

/-- A place with names for its items. -/
def Place.named (name : String → κ) (p : Place (Item α)) : Place κ :=
  ⟨p.around.map (fun c => name c.id), name p.key.id, p.isBlock⟩

/-- The strokes of an outline are complete in themselves. -/
theorem reads_of_outlineWithin? (name : String → κ) {levels depth : Nat} {cs : List (Item α)}
    {entries : List (Entry α)}
    (h : outlineWithin? parentOf d levels depth (cs.head?.map (·.id)) = some entries) :
    Reads (cs.map (fun c => name c.id)) (entries.map (·.mark.stroke name))
      ((held parentOf d levels cs).map (Place.named name)) := by
  induction levels generalizing depth cs entries with
  | zero => simp [outlineWithin?] at h
  | succ levels ih =>
    obtain ⟨inside, hinside, rfl⟩ := exists_of_outlineWithin? h
    rw [held, List.map_append, List.map_append, List.map_flatMap, List.map_flatMap, List.map_map,
      List.map_map]
    apply Reads.append
    · apply Reads.flatMap
      intro c hc
      -- a container is a block around the outline one level further in
      have hinner : outlineWithin? parentOf d levels (depth + 1) ((c :: cs).head?.map (·.id)) =
          some (inside c) := hinside c hc
      simpa [enclosed, Mark.stroke, Place.named] using (ih hinner).block
    · exact Reads.items _ _ fun n : Node α => name n.id

/-- The strokes of a whole outline. -/
theorem reads_of_outline? (name : String → κ) {entries : List (Entry α)}
    (h : outline? parentOf d = some entries) :
    Reads [] (entries.map (·.mark.stroke name))
      ((held parentOf d (d.containers.length + 1) []).map (Place.named name)) := by
  have hwithin : outlineWithin? parentOf d (d.containers.length + 1) 0
      (([] : List (Item α)).head?.map (·.id)) = some entries := h
  exact reads_of_outlineWithin? name hwithin

/-- Names come in the order of the identifiers in an outline. -/
theorem map_key_held (name : String → κ) {entries : List (Entry α)}
    (h : outline? parentOf d = some entries) :
    ((held parentOf d (d.containers.length + 1) []).map (Place.named name)).map (·.key) =
      (entries.filterMap (·.mark.id?)).map name := by
  rw [map_key_of_places? (reads_of_outline? name h).places?_eq, List.filterMap_map,
    List.map_filterMap]
  congr 1
  funext e
  exact e.mark.key?_stroke name

/-- A place that the document gives an item: right inside its parent, along a trail. -/
structure Fits (parentOf : Item α → Option String) (d : Document α) (p : Place (Item α)) :
    Prop where
  trail : Trail parentOf d p.around
  parent : parentOf p.key = p.around.head?.map (·.id)
  part : if p.isBlock then p.key ∈ d.containers else p.key ∈ d.nodes.map Node.toItem

/-- Inside the open containers stand the items that fit further in. -/
theorem mem_held_iff {levels : Nat} {cs : List (Item α)} (hcs : Trail parentOf d cs)
    (p : Place (Item α)) :
    p ∈ held parentOf d levels cs ↔
      Fits parentOf d p ∧ ∃ inner, p.around = inner ++ cs ∧ inner.length < levels := by
  -- a level further in, one more container is open
  induction levels generalizing cs p with
  | zero => simp [held]
  | succ levels ih =>
    have hopen {c : Item α} (hc : c ∈ d.containers) (hp : parentOf c = cs.head?.map (·.id)) :
        Trail parentOf d (c :: cs) := .cons hc hp hcs
    simp only [held, List.mem_append, List.mem_flatMap, List.mem_filter, List.mem_cons,
      List.mem_map, beq_iff_eq]
    constructor
    · rintro (⟨c, ⟨hc, hp⟩, rfl | hin⟩ | ⟨n, ⟨hn, hp⟩, rfl⟩)
      · exact ⟨⟨hcs, hp, hc⟩, [], rfl, Nat.succ_pos _⟩
      · obtain ⟨hfits, inner, hinner, hlt⟩ := (ih (hopen hc hp) p).mp hin
        refine ⟨hfits, inner ++ [c], ?_, ?_⟩
        · rw [hinner, List.append_assoc, List.singleton_append]
        · rw [List.length_append, List.length_singleton]
          omega
      · exact ⟨⟨hcs, hp, List.mem_map_of_mem hn⟩, [], rfl, Nat.succ_pos _⟩
    · rintro ⟨hfits, inner, hinner, hlt⟩
      obtain ⟨around, key, isBlock⟩ := p
      obtain rfl : around = inner ++ cs := hinner
      -- nothing is open further in, and the item stands right here, or something is
      rcases List.eq_nil_or_concat' inner with rfl | ⟨inner, c, rfl⟩
      · cases isBlock with
        | true => exact .inl ⟨key, ⟨hfits.part, hfits.parent⟩, .inl rfl⟩
        | false =>
          obtain ⟨n, hn, rfl⟩ := List.mem_map.mp hfits.part
          exact .inr ⟨n, ⟨hn, hfits.parent⟩, rfl⟩
      · -- the outermost container further in is one of those at this place
        rw [List.append_assoc, List.singleton_append] at hfits ⊢
        cases Trail.of_append hfits.trail with
        | cons hc hp hrest =>
          refine .inl ⟨c, ⟨hc, hp⟩, .inr ((ih (hopen hc hp) _).mpr ⟨hfits, inner, rfl, ?_⟩)⟩
          rw [List.length_append, List.length_singleton] at hlt
          omega

/-- No place is listed twice: what stands in different containers has different trails. -/
theorem nodup_held (hc : d.containers.Nodup) (hn : (d.nodes.map Node.toItem).Nodup) {levels : Nat}
    {cs : List (Item α)} (hcs : Trail parentOf d cs) : (held parentOf d levels cs).Nodup := by
  induction levels generalizing cs with
  | zero => exact List.nodup_nil
  | succ levels ih =>
    -- a place inside `c` has `c` right before the containers open so far
    have hinside {c : Item α} (hc : c ∈ d.containers.filter (parentOf · == cs.head?.map (·.id)))
        {p : Place (Item α)} (hp : p ∈ held parentOf d levels (c :: cs)) :
        ∃ inner, p.around = inner ++ c :: cs := by
      obtain ⟨hmem, hparent⟩ := List.mem_filter.mp hc
      obtain ⟨-, inner, hinner, -⟩ :=
        (mem_held_iff (.cons hmem (by simpa using hparent) hcs) p).mp hp
      exact ⟨inner, hinner⟩
    have hdeeper {c : Item α} {inner : List (Item α)} : inner ++ c :: cs ≠ cs := by
      intro heq
      have hlength := congrArg List.length heq
      rw [List.length_append, List.length_cons] at hlength
      omega
    rw [held]
    apply List.Nodup.append
    · -- no block repeats a place, and the trails of two blocks part at their containers
      apply List.nodup_flatMap.mpr
      refine ⟨fun c hc => ?_, ?_⟩
      · obtain ⟨hmem, hparent⟩ := List.mem_filter.mp hc
        refine List.nodup_cons.mpr ⟨fun hp => ?_, ih (.cons hmem (by simpa using hparent) hcs)⟩
        obtain ⟨inner, hinner⟩ := hinside hc hp
        exact hdeeper hinner.symm
      · apply (hc.filter _).imp_of_mem
        intro c c' hc hc' hne p hp hp'
        rcases List.mem_cons.mp hp with rfl | hp
        · rcases List.mem_cons.mp hp' with heq | hp'
          · exact hne (congrArg Place.key heq)
          · obtain ⟨inner, hinner⟩ := hinside hc' hp'
            exact hdeeper hinner.symm
        · obtain ⟨inner, hinner⟩ := hinside hc hp
          rcases List.mem_cons.mp hp' with rfl | hp'
          · exact hdeeper hinner.symm
          · obtain ⟨inner', hinner'⟩ := hinside hc' hp'
            have htails := (List.append_inj_right' (hinner.symm.trans hinner') rfl)
            exact hne (List.cons.inj htails).1
    · -- nodes at one place differ by their keys
      apply List.Nodup.of_map (fun p => p.key)
      rw [List.map_map]
      have hfilter := hn.sublist ((d.nodes.filter_sublist (p := fun n =>
        parentOf n.toItem == cs.head?.map (·.id))).map Node.toItem)
      exact hfilter
    · intro p hp hp'
      obtain ⟨n, -, rfl⟩ := List.mem_map.mp hp'
      obtain ⟨c, hc, hp⟩ := List.mem_flatMap.mp hp
      rcases List.mem_cons.mp hp with heq | hp
      · cases congrArg Place.isBlock heq
      · obtain ⟨inner, hinner⟩ := hinside hc hp
        exact hdeeper hinner.symm

section Resolved

variable (hd : d.Resolved) (hparent : ∀ i ∈ d.items, parentOf i = i.parent)
include hd

/-- Every parent is one of the containers. -/
theorem filter_parent {i : Item α} (hi : i ∈ d.items) :
    i.parent.filter d.containerIds.contains = i.parent := by
  cases hp : i.parent with
  | none => rfl
  | some p =>
    have hmem := hd.parents i hi p hp
    simp [Option.filter, hmem]

include hparent

/-- A trail leads to every item. -/
theorem exists_trail {i : Item α} (hi : i ∈ d.items) :
    ∃ cs, Trail parentOf d cs ∧ parentOf i = cs.head?.map (·.id) := by
  have hfollowed : ∀ c ∈ d.containers, parentOf c = c.parent.filter d.containerIds.contains := by
    intro c hc
    have hitem : c ∈ d.items := List.mem_append_left _ hc
    rw [hparent c hitem, filter_parent hd hitem]
  rw [hparent i hi]
  cases hp : i.parent with
  | none => exact ⟨[], .nil, rfl⟩
  | some p =>
    obtain ⟨c, hc, rfl⟩ := List.mem_map.mp (hd.parents i hi p hp)
    obtain ⟨cs, hcs⟩ := exists_trail_cons hfollowed hc hd.acyclic.not_leadsIntoCycle
    exact ⟨c :: cs, hcs, rfl⟩

/-- The trails to all items, by identifier. -/
theorem exists_trails : ∃ trail : String → List (Item α), ∀ i ∈ d.items,
    Trail parentOf d (trail i.id) ∧ parentOf i = (trail i.id).head?.map (·.id) := by
  have hall : ∀ id, ∃ cs, ∀ i ∈ d.items, i.id = id →
      Trail parentOf d cs ∧ parentOf i = cs.head?.map (·.id) := by
    intro id
    by_cases hid : ∃ i ∈ d.items, i.id = id
    · obtain ⟨i, hi, rfl⟩ := hid
      obtain ⟨cs, hcs⟩ := exists_trail hd hparent hi
      refine ⟨cs, fun j hj heq => ?_⟩
      rwa [List.inj_on_of_nodup_map hd.distinct hj hi heq]
    · exact ⟨[], fun i hi heq => absurd ⟨i, hi, heq⟩ hid⟩
  choose trail htrail using hall
  exact ⟨trail, fun i hi => htrail i.id i hi rfl⟩

variable {trail : String → List (Item α)}
  (htrail : ∀ i ∈ d.items, Trail parentOf d (trail i.id) ∧
    parentOf i = (trail i.id).head?.map (·.id))
include htrail

omit hparent

/-- The outline of a document has every item at one place. -/
theorem held_perm :
    (held parentOf d (d.containers.length + 1) []).Perm
      (d.containers.map (fun c => ⟨trail c.id, c, true⟩) ++
        d.nodes.map (fun n => ⟨trail n.id, n.toItem, false⟩)) := by
  have hitems : d.items.Nodup := hd.distinct.of_map _
  obtain ⟨hcontainers, hnodes, -⟩ := List.nodup_append.mp hitems
  apply (List.perm_ext_iff_of_nodup (nodup_held hcontainers hnodes .nil) ?_).mpr
  · intro p
    have hbound (hp : Fits parentOf d p) : p.around.length < d.containers.length + 1 :=
      Nat.lt_succ_of_le (hp.trail.length_le hd.nodup_containerIds)
    have hfits : p ∈ held parentOf d (d.containers.length + 1) [] ↔ Fits parentOf d p := by
      rw [mem_held_iff .nil]
      exact ⟨And.left, fun hp => ⟨hp, p.around, by simp, hbound hp⟩⟩
    rw [hfits, List.mem_append, List.mem_map, List.mem_map]
    constructor
    · intro hp
      obtain ⟨around, key, isBlock⟩ := p
      -- the parent decides which containers are open around an item
      have haround (hkey : key ∈ d.items) : around = trail key.id := by
        obtain ⟨htrail, hhead⟩ := htrail key hkey
        exact hp.trail.eq_of_head hd.nodup_containerIds htrail (hp.parent.symm.trans hhead)
      cases isBlock with
      | true =>
        have hkey : key ∈ d.containers := hp.part
        exact .inl ⟨key, hkey, by rw [haround (List.mem_append_left _ hkey)]⟩
      | false =>
        obtain ⟨n, hn, rfl⟩ := List.mem_map.mp hp.part
        exact .inr ⟨n, hn, by rw [haround (List.mem_append_right _ hp.part)]⟩
    · rintro (⟨c, hc, rfl⟩ | ⟨n, hn, rfl⟩)
      · obtain ⟨htrail, hhead⟩ := htrail c (List.mem_append_left _ hc)
        exact ⟨htrail, hhead, hc⟩
      · have hmem : n.toItem ∈ d.nodes.map Node.toItem := List.mem_map_of_mem hn
        obtain ⟨htrail, hhead⟩ := htrail n.toItem (List.mem_append_right _ hmem)
        exact ⟨htrail, hhead, hmem⟩
  · apply List.Nodup.of_map (·.key)
    rw [List.map_append, List.map_map, List.map_map]
    have hkeys : d.containers.map (fun c => c) ++ d.nodes.map Node.toItem = d.items := by
      rw [List.map_id']
      rfl
    exact hkeys ▸ hitems

/-- The outline of a document has every identifier once. -/
theorem ids_perm {entries : List (Entry α)} (h : outline? parentOf d = some entries) :
    (entries.filterMap (·.mark.id?)).Perm (d.items.map (·.id)) := by
  have hkeys := map_key_held id h
  have hperm := (held_perm hd htrail).map (·.key.id)
  rw [List.map_append, List.map_map, List.map_map] at hperm
  rw [List.map_id, List.map_map] at hkeys
  rwa [← hkeys, Document.items, List.map_append, List.map_map]

/-- An outline has an entry for every node and two for every container. -/
theorem length_of_outline? {entries : List (Entry α)} (h : outline? parentOf d = some entries) :
    entries.length = 2 * d.containers.length + d.nodes.length := by
  have hperm := held_perm hd htrail
  have hcount := countP_isShape_of_places? (reads_of_outline? id h).places?_eq
  have hshapes : (entries.map (·.mark.stroke id)).countP Stroke.isShape = entries.length := by
    rw [List.countP_eq_length.mpr, List.length_map]
    intro st hst
    obtain ⟨e, -, rfl⟩ := List.mem_map.mp hst
    exact e.mark.isShape_stroke id
  have hblocks : ((held parentOf d (d.containers.length + 1) []).map (Place.named id)).countP
      (·.isBlock) = d.containers.length := by
    rw [List.countP_map, hperm.countP_eq, List.countP_append, List.countP_map, List.countP_map]
    simp [Function.comp_def, Place.named]
  rw [hshapes, hblocks, List.length_map, hperm.length_eq, List.length_append, List.length_map,
    List.length_map, List.length_nil] at hcount
  omega

include hparent in
/-- The blocks around an item are those around its parent, and the parent. -/
theorem trail_eq {i : Item α} (hi : i ∈ d.items) :
    (trail i.id).map (·.id) =
      match i.parent with
      | none => []
      | some p => p :: (trail p).map (·.id) := by
  obtain ⟨hopen, hhead⟩ := htrail i hi
  rw [hparent i hi] at hhead
  cases hcs : trail i.id with
  | nil =>
    rw [hcs] at hhead
    simp [hhead]
  | cons c cs =>
    rw [hcs] at hhead hopen
    cases hopen with
    | cons hc hp hrest =>
      obtain ⟨htrail, hhead'⟩ := htrail c (List.mem_append_left _ hc)
      have heq : cs = trail c.id :=
        hrest.eq_of_head hd.nodup_containerIds htrail (hp.symm.trans hhead')
      simp [hhead, ← heq]

end Resolved

/-- The places of all items, given their names and the blocks around them. -/
def placesOf (d : Document α) (name : String → κ) (around : String → List κ) : List (Place κ) :=
  d.containers.map (fun c => ⟨around c.id, name c.id, true⟩) ++
    d.nodes.map (fun n => ⟨around n.id, name n.id, false⟩)

theorem map_key_placesOf (d : Document α) (name : String → κ) (around : String → List κ) :
    (placesOf d name around).map (·.key) = d.items.map fun i => name i.id := by
  rw [placesOf, Document.items, List.map_append, List.map_append, List.map_map, List.map_map,
    List.map_map]
  rfl

/-- The strokes `sts` draw a document. They are balanced; after the places in `head` every item
stands at one place, in `items`, right inside its parent; and the links come last, in order, with
`linkEnd` for their ends. -/
structure Draws (d : Document α) (name linkEnd : String → κ) (around : String → List κ)
    (head items : List (Place κ)) (sts : List (Stroke κ)) : Prop where
  balanced : places? [] sts = some (head ++ items)
  once : items.Perm (placesOf d name around)
  distinct : (items.map (·.key)).Nodup
  inside : ∀ i ∈ d.items, around i.id =
    match i.parent with
    | none => []
    | some p => name p :: around p
  links : ∃ shapes, (∀ st ∈ shapes, st.isLink = false) ∧
    sts = shapes ++ d.links.map fun l => .link (linkEnd l.source) (linkEnd l.target) l.bidirectional

/-- Strokes that are read as the outline of a document, and links after them, draw it. -/
theorem draws_of_reads (hd : d.Resolved) (hparent : ∀ i ∈ d.items, parentOf i = i.parent)
    {trail : String → List (Item α)}
    (htrail : ∀ i ∈ d.items, Trail parentOf d (trail i.id) ∧
      parentOf i = (trail i.id).head?.map (·.id))
    {name : String → κ} (hname : ∀ i ∈ d.items, ∀ j ∈ d.items, name i.id = name j.id → i.id = j.id)
    {shapes : List (Stroke κ)} {head : List (Place κ)}
    (hshapes : Reads [] shapes
      (head ++ (held parentOf d (d.containers.length + 1) []).map (Place.named name)))
    (hlink : ∀ st ∈ shapes, st.isLink = false) (linkEnd : String → κ) :
    Draws d name linkEnd (fun id => (trail id).map fun c => name c.id) head
      ((held parentOf d (d.containers.length + 1) []).map (Place.named name))
      (shapes ++ d.links.map fun l =>
        .link (linkEnd l.source) (linkEnd l.target) l.bidirectional) := by
  have honce : ((held parentOf d (d.containers.length + 1) []).map (Place.named name)).Perm
      (placesOf d name fun id => (trail id).map fun c => name c.id) := by
    have hperm := (held_perm hd htrail).map (Place.named name)
    rwa [List.map_append, List.map_map, List.map_map] at hperm
  refine ⟨?_, honce, ?_, ?_, shapes, hlink, rfl⟩
  · -- links open and close nothing
    have hsilent : ∀ st ∈ d.links.map fun l : Link =>
        Stroke.link (linkEnd l.source) (linkEnd l.target) l.bidirectional, st.isShape = false := by
      simp
    have hall := (hshapes.append (.of_silent hsilent)).places?_eq
    rwa [List.append_nil] at hall
  · apply (honce.map _).nodup_iff.mpr
    rw [map_key_placesOf]
    apply List.Nodup.map_on _ (hd.distinct.of_map _)
    intro i hi j hj heq
    exact List.inj_on_of_nodup_map hd.distinct hi hj (hname i hi j hj heq)
  · intro i hi
    have hids := congrArg (List.map name) (trail_eq hd hparent htrail hi)
    rw [List.map_map] at hids
    cases hp : i.parent with
    | none => simpa [hp] using hids
    | some p => simpa [hp, Function.comp_def] using hids

end ArchDiagram.Render
