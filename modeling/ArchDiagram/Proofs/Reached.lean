import ArchDiagram.Proofs.Drawing

/-!
What outlines reach. An outline opens the containers that trails lead to and shows the nodes inside
them, so it has everything but what lies on a cycle of containers or below one, and nothing twice.
-/

namespace ArchDiagram.Render

variable {α β κ : Type} {parentOf : Item α → Option String} {d : Document α}

/-- Grouping by different keys gives the members whose key is one of them. -/
theorem perm_flatMap_filter [BEq κ] [LawfulBEq κ] {keys : List κ} (hkeys : keys.Nodup) (f : β → κ)
    (l : List β) :
    (keys.flatMap fun k => l.filter (f · == k)).Perm (l.filter (keys.contains <| f ·)) := by
  induction keys with
  | nil => simp
  | cons k keys ih =>
    obtain ⟨hk, hkeys⟩ := List.nodup_cons.mp hkeys
    -- the members with one of the keys are those with the first and those with a later one
    have hfirst : (l.filter ((k :: keys).contains <| f ·)).filter (f · == k) =
        l.filter (f · == k) := by
      rw [List.filter_filter]
      exact List.filter_congr fun b _ => by simp +contextual
    have hlater : ((l.filter ((k :: keys).contains <| f ·)).filter fun b => !(f b == k)) =
        l.filter (keys.contains <| f ·) := by
      rw [List.filter_filter]
      apply List.filter_congr
      intro b _
      by_cases hb : f b = k
      · simp [hb, hk]
      · simp [hb]
    have hparts := List.filter_append_perm (f · == k) (l.filter ((k :: keys).contains <| f ·))
    rw [hfirst, hlater] at hparts
    rw [List.flatMap_cons]
    exact ((ih hkeys).append_left _).trans hparts

/-- The containers that the marks of an outline open. -/
def opened (es : List (Entry α)) : List (Item α) :=
  es.filterMap (·.mark.container?)

/-- The nodes that the marks of an outline show. -/
def shown (es : List (Entry α)) : List (Node α) :=
  es.filterMap (·.mark.node?)

/-- The places that an outline of what is inside `parent` covers: this one, and the inside of every
container that it opens. -/
def covered (parent : Option String) (es : List (Entry α)) : List (Option String) :=
  parent :: (opened es).map (some ·.id)

section Level

variable (depth : Nat) (inner : List (Item α)) (inside : Item α → List (Entry α))
  (nodes : List (Node α))

theorem opened_level :
    opened (inner.flatMap (fun c => enclosed depth c (inside c)) ++
        nodes.map (⟨depth, .node ·⟩)) = inner.flatMap fun c => c :: opened (inside c) := by
  have hnodes : (nodes.map fun n => (⟨depth, .node n⟩ : Entry α)).filterMap (·.mark.container?) =
      [] := by
    simp [Mark.container?]
  have hblock (c : Item α) : (enclosed depth c (inside c)).filterMap (·.mark.container?) =
      c :: opened (inside c) := by
    simp [enclosed, opened, Mark.container?]
  rw [opened, List.filterMap_append, hnodes, List.append_nil, List.filterMap_flatMap]
  exact congrArg (inner.flatMap ·) (funext hblock)

theorem shown_level :
    shown (inner.flatMap (fun c => enclosed depth c (inside c)) ++ nodes.map (⟨depth, .node ·⟩)) =
      (inner.flatMap fun c => shown (inside c)) ++ nodes := by
  have hnodes : (nodes.map fun n => (⟨depth, .node n⟩ : Entry α)).filterMap (·.mark.node?) =
      nodes := by
    simp [Mark.node?]
  have hblock (c : Item α) : (enclosed depth c (inside c)).filterMap (·.mark.node?) =
      shown (inside c) := by
    simp [enclosed, shown, Mark.node?]
  rw [shown, List.filterMap_append, hnodes, List.filterMap_flatMap]
  exact congrArg (inner.flatMap · ++ nodes) (funext hblock)

end Level

/-- A document without its nodes. -/
def nodeless (d : Document α) : Document α :=
  { d with nodes := [] }

/-- Nodes are not on the way to anything. -/
theorem Trail.nodeless_iff {cs : List (Item α)} :
    Trail parentOf (nodeless d) cs ↔ Trail parentOf d cs := by
  constructor <;> intro h
  · induction h with
    | nil => exact .nil
    | cons hc hp _ ih => exact .cons hc hp ih
  · induction h with
    | nil => exact .nil
    | cons hc hp _ ih => exact .cons hc hp ih

theorem Fits.isBlock_of_nodeless {p : Place (Item α)} (h : Fits parentOf (nodeless d) p) :
    p.isBlock = true := by
  have hpart := h.part
  by_contra hblock
  simp [hblock, nodeless] at hpart

/-- An outline opens the containers at the places of the document without its nodes. -/
theorem opened_of_outlineWithin? {levels depth : Nat} {cs : List (Item α)} {es : List (Entry α)}
    (h : outlineWithin? parentOf d levels depth (cs.head?.map (·.id)) = some es) :
    opened es = (held parentOf (nodeless d) levels cs).map (·.key) := by
  induction levels generalizing depth cs es with
  | zero => simp [outlineWithin?] at h
  | succ levels ih =>
    obtain ⟨inside, hinside, rfl⟩ := exists_of_outlineWithin? h
    rw [opened_level, held, nodeless, List.filter_nil, List.map_nil, List.append_nil,
      List.map_flatMap]
    apply List.flatMap_congr
    intro c hc
    have hinner : outlineWithin? parentOf d levels (depth + 1) ((c :: cs).head?.map (·.id)) =
        some (inside c) := hinside c hc
    rw [List.map_cons, ih hinner]
    rfl

theorem opened_of_outline? {es : List (Entry α)} (h : outline? parentOf d = some es) :
    opened es = (held parentOf (nodeless d) (d.containers.length + 1) []).map (·.key) := by
  have hwithin : outlineWithin? parentOf d (d.containers.length + 1) 0
      (([] : List (Item α)).head?.map (·.id)) = some es := h
  exact opened_of_outlineWithin? hwithin

/-- An outline shows the nodes at the places that it covers. -/
theorem shown_of_outlineWithin? {levels depth : Nat} {parent : Option String} {es : List (Entry α)}
    (h : outlineWithin? parentOf d levels depth parent = some es) :
    (shown es).Perm ((covered parent es).flatMap fun p =>
      d.nodes.filter (parentOf ·.toItem == p)) := by
  induction levels generalizing depth parent es with
  | zero => simp [outlineWithin?] at h
  | succ levels ih =>
    obtain ⟨inside, hinside, rfl⟩ := exists_of_outlineWithin? h
    rw [covered, opened_level, shown_level, List.flatMap_cons, List.map_flatMap,
      List.flatMap_assoc]
    refine List.perm_append_comm.trans (List.Perm.append_left _ (List.Perm.flatMap_left _ ?_))
    intro c hc
    exact ih (hinside c hc)

section Outline

variable (hids : d.containerIds.Nodup) {es : List (Entry α)} (h : outline? parentOf d = some es)
include hids h

/-- An outline opens the containers that trails lead to. -/
theorem mem_opened_iff {c : Item α} :
    c ∈ opened es ↔ c ∈ d.containers ∧ ∃ cs, Trail parentOf d (c :: cs) := by
  rw [opened_of_outline? h, List.mem_map]
  constructor
  · rintro ⟨p, hp, rfl⟩
    obtain ⟨hfits, -⟩ := (mem_held_iff .nil p).mp hp
    have hc : p.key ∈ d.containers := by
      have hpart := hfits.part
      rwa [hfits.isBlock_of_nodeless, if_pos rfl] at hpart
    exact ⟨hc, p.around, .cons hc hfits.parent (Trail.nodeless_iff.mp hfits.trail)⟩
  · rintro ⟨hc, cs, htrail⟩
    have hlength := htrail.length_le hids
    cases htrail with
    | cons _ hparent hrest =>
      refine ⟨⟨cs, c, true⟩, (mem_held_iff .nil _).mpr ⟨⟨?_, hparent, hc⟩, cs, by simp, ?_⟩, rfl⟩
      · exact Trail.nodeless_iff.mpr hrest
      · rw [List.length_cons] at hlength
        omega

/-- No outline opens a container twice: there is one trail to it. -/
theorem nodup_opened : ((opened es).map (·.id)).Nodup := by
  have hmem : ∀ c ∈ opened es, c ∈ d.containers := fun c hc => ((mem_opened_iff hids h).mp hc).1
  have hnodup : (opened es).Nodup := by
    rw [opened_of_outline? h]
    apply (nodup_held (d := nodeless d) (hids.of_map _) List.nodup_nil .nil).map_on
    rintro ⟨around, key, isBlock⟩ hp ⟨around', key', isBlock'⟩ hq hkey
    obtain ⟨hfits, -⟩ := (mem_held_iff .nil _).mp hp
    obtain ⟨hfits', -⟩ := (mem_held_iff .nil _).mp hq
    obtain rfl : key = key' := hkey
    obtain rfl : isBlock = true := hfits.isBlock_of_nodeless
    obtain rfl : isBlock' = true := hfits'.isBlock_of_nodeless
    obtain rfl : around = around' :=
      Trail.eq_of_head (d := nodeless d) hids hfits.trail hfits'.trail
        (hfits.parent.symm.trans hfits'.parent)
    rfl
  apply hnodup.map_on
  intro c hc k hk heq
  exact List.inj_on_of_nodup_map hids (hmem c hc) (hmem k hk) heq

theorem nodup_covered : (covered none es).Nodup := by
  refine List.nodup_cons.mpr ⟨by simp, ?_⟩
  simpa [Function.comp_def] using (nodup_opened hids h).map (Option.some_injective _)

theorem id_mem_covered_iff {c : Item α} (hc : c ∈ d.containers) :
    some c.id ∈ covered none es ↔ c ∈ opened es := by
  simp only [covered, List.mem_cons, reduceCtorEq, false_or, List.mem_map, Option.some.injEq]
  constructor
  · rintro ⟨k, hk, hid⟩
    rwa [← List.inj_on_of_nodup_map hids ((mem_opened_iff hids h).mp hk).1 hc hid]
  · exact fun hc => ⟨c, hc, rfl⟩

end Outline

open scoped Classical in
/-- What the outline `es` reaches: it opens every container and shows every node exactly once, but
for those whose chain of parents runs into a cycle, and these not at all. -/
structure ReachesAll (d : Document α) (es : List (Entry α)) : Prop where
  containers : (opened es).Perm (d.containers.filter (¬RunsIntoCycle d.containers ·))
  nodes : (shown es).Perm (d.nodes.filter (¬RunsIntoCycle d.containers ·.toItem))

/-- An outline that follows parents reaches everything that is not kept away by a cycle. -/
theorem reachesAll_of_outline? (hids : d.containerIds.Nodup)
    (hparent : ∀ i ∈ d.items, parentOf i = i.parent.filter d.containerIds.contains)
    {es : List (Entry α)} (h : outline? parentOf d = some es) : ReachesAll d es := by
  classical
  have hfollowed : ∀ c ∈ d.containers, parentOf c = c.parent.filter d.containerIds.contains :=
    fun c hc => hparent c (List.mem_append_left _ hc)
  have hopened {c : Item α} : c ∈ opened es ↔ c ∈ d.containers ∧ ¬RunsIntoCycle d.containers c := by
    rw [mem_opened_iff hids h]
    exact and_congr_right fun hc => exists_trail_cons_iff hids hfollowed hc
  constructor
  · have hnodup := nodup_opened hids h
    apply (List.perm_ext_iff_of_nodup (hnodup.of_map _) ((hids.of_map _).filter _)).mpr
    intro c
    rw [hopened, List.mem_filter, decide_eq_true_eq]
  · have hgrouped := perm_flatMap_filter (nodup_covered hids h) (parentOf ·.toItem) d.nodes
    refine ((shown_of_outlineWithin? h).trans hgrouped).trans (List.Perm.of_eq ?_)
    apply List.filter_congr
    intro n hn
    have hitem : n.toItem ∈ d.items := List.mem_append_right _ (List.mem_map_of_mem hn)
    rw [Bool.eq_iff_iff, List.contains_iff_mem, decide_eq_true_eq, runsIntoCycle_iff_filter,
      hparent _ hitem]
    cases hp : n.parent.filter d.containerIds.contains with
    | none => simp [covered]
    | some p =>
      -- the node is shown exactly when the container around it is opened
      obtain ⟨-, hmem⟩ := Option.filter_eq_some_iff.mp hp
      obtain ⟨c, hc, rfl⟩ := List.mem_map.mp (List.contains_iff_mem.mp hmem)
      rw [id_mem_covered_iff hids h hc, hopened, runsIntoCycle_iff hids hc]
      simp [hc]

end ArchDiagram.Render
