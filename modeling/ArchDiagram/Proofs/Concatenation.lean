import ArchDiagram.Proofs.Acceptance
import ArchDiagram.Proofs.Renumbering

/-!
One text after another. When the first has closed all its blocks, no identifier is declared in both
and not both have a title, the lines of the second are read as if they stood alone. Two readable
texts of this kind give one document that holds what both hold.
-/

namespace ArchDiagram

/-- From a container of a closed part of a nesting, all ancestors are in that part. -/
theorem transGen_of_closed {α : Type} {cs as : List (Item α)}
    (hin : ∀ c ∈ cs, c.id ∈ as.map (·.id) → c ∈ as)
    (hclosed : ∀ a ∈ as, ∀ p ∈ a.parent, p ∈ as.map (·.id)) {x y : String}
    (hx : x ∈ as.map (·.id)) (h : Relation.TransGen (ParentOf cs) x y) :
    Relation.TransGen (ParentOf as) x y ∧ y ∈ as.map (·.id) := by
  -- a container of the part has its parent in the part, so no step leads out
  have hstep {x y : String} (hx : x ∈ as.map (·.id)) (h : ParentOf cs x y) :
      ParentOf as x y ∧ y ∈ as.map (·.id) := by
    obtain ⟨c, hc, rfl, hp⟩ := h
    have ha := hin c hc hx
    exact ⟨⟨c, ha, rfl, hp⟩, hclosed c ha y hp⟩
  induction h with
  | single h =>
    obtain ⟨hp, hy⟩ := hstep hx h
    exact ⟨.single hp, hy⟩
  | tail _ h ih =>
    obtain ⟨hpath, hz⟩ := ih
    obtain ⟨hp, hy⟩ := hstep hz h
    exact ⟨hpath.tail hp, hy⟩

/-- Two nestings without common identifiers form no cycle together. -/
theorem Acyclic.append {α : Type} {as bs : List (Item α)} (ha : Acyclic as) (hb : Acyclic bs)
    (hpa : ∀ a ∈ as, ∀ p ∈ a.parent, p ∈ as.map (·.id))
    (hpb : ∀ b ∈ bs, ∀ p ∈ b.parent, p ∈ bs.map (·.id))
    (hd : ∀ x ∈ as.map (·.id), x ∉ bs.map (·.id)) : Acyclic (as ++ bs) := by
  intro c hc hcycle
  rcases List.mem_append.mp hc with hc | hc
  · refine ha c hc (transGen_of_closed ?_ hpa (List.mem_map_of_mem hc) hcycle).1
    intro e he hid
    rcases List.mem_append.mp he with he | he
    · exact he
    · exact absurd (List.mem_map_of_mem he) (hd e.id hid)
  · refine hb c hc (transGen_of_closed ?_ hpb (List.mem_map_of_mem hc) hcycle).1
    intro e he hid
    rcases List.mem_append.mp he with he | he
    · exact absurd hid (hd e.id (List.mem_map_of_mem he))
    · exact he

/-- A link with the identifier of its place among all links. -/
def Link.placed (i : Nat) (l : Link) : Link :=
  { l with id := "l" ++ toString (i + 1) }

namespace Source

open Text

namespace History

/-- Lines `k` after lines `h` that do not touch them: the blocks of `h` are closed, no identifier
is declared in both, and not both have a title. -/
structure Apart (h k : List Line) : Prop where
  closed : openBlocks h = []
  ids : ∀ l ∈ k, ∀ d ∈ l.declaration?, ∀ m ∈ h, m.declares d.id = false
  title : title? h = none ∨ ∀ l ∈ k, l.title? = none

variable {h k : List Line} {l : Line}

theorem Apart.tail (ha : Apart h (l :: k)) : Apart h k :=
  ⟨ha.closed, fun m hm => ha.ids m (by simp [hm]),
    ha.title.imp_right fun ht m hm => ht m (by simp [hm])⟩

theorem first?_append (ha : Apart h (l :: k)) : first? (k ++ h) l = first? k l := by
  cases hd : l.declaration? with
  | none => simp [first?, hd]
  | some d =>
    have hh : h.any (Line.declares d.id) = false := by
      simpa using ha.ids l (by simp) d hd
    simp [first?, hd, Option.filter_some, List.any_append, hh]

theorem openBlocks_append (ha : Apart h k) : openBlocks (k ++ h) = openBlocks k := by
  induction k with
  | nil => exact ha.closed
  | cons l k ih => rw [List.cons_append, openBlocks, openBlocks, ih ha.tail, first?_append ha]

theorem kept_append (ha : Apart h k) : kept (k ++ h) = kept h ++ kept k := by
  induction k with
  | nil => simp [kept]
  | cons l k ih =>
    rw [List.cons_append, kept, kept, ih ha.tail, placed?, placed?, first?_append ha, enclosing?,
      enclosing?, openBlocks_append ha.tail, List.append_assoc]

theorem title?_append (h k : List Line) : title? (k ++ h) = (title? h).or (title? k) := by
  rw [title?, title?, title?, List.reverse_append, List.findSome?_append]

theorem links_append (h k : List Line) : links (k ++ h) = links h ++ links k := by
  rw [links, links, links, List.reverse_append, List.filterMap_append]

/-- A line finds the same fault with and without the lines that it does not touch. -/
theorem fault?_append (ha : Apart h (l :: k)) : fault? (k ++ h) l = fault? k l := by
  unfold fault?
  rw [openBlocks_append ha.tail, kept_append ha.tail, title?_append]
  cases hk : l.kind with
  | declaration =>
    cases hr : Declaration.read l with
    | error e => cases e <;> rfl
    | ok d =>
      have hd := declaration?_eq_some_iff.mpr ⟨hk, hr⟩
      have hfind := (find?_kept_eq_none_iff h d.id).mpr (ha.ids l (by simp) d hd)
      dsimp only
      rw [List.find?_append, hfind, Option.none_or]
  | title =>
    cases hr : readTitle l with
    | error f => rfl
    | ok text =>
      -- a title that can be read rules out one before
      have hnone : title? h = none := by
        rcases ha.title with hh | hh
        · exact hh
        · have := hh l (by simp)
          simp [Line.title?, hk, hr, Except.toOption] at this
      rw [hnone, Option.none_or]
  | link => rfl
  | blockEnd => rfl
  | comment => rfl
  | blank => rfl
  | unknown => rfl

theorem diagnostics_append (ha : Apart h k) :
    diagnostics (k ++ h) = diagnostics h ++ diagnostics k := by
  induction k with
  | nil => simp [diagnostics]
  | cons l k ih =>
    rw [List.cons_append, diagnostics, diagnostics, ih ha.tail, fault?_append ha,
      List.append_assoc]

theorem containersOf_append (ds es : List Declaration) :
    containersOf (ds ++ es) = containersOf ds ++ containersOf es := by
  simp [containersOf]

theorem mem_map_id_of_containersOf {ds : List Declaration} {a : String}
    (ha : a ∈ (containersOf ds).map (·.id)) : a ∈ ds.map (·.id) := by
  obtain ⟨c, hc, -, hid⟩ := mem_map_id_containersOf.mp ha
  exact List.mem_map.mpr ⟨c, hc, hid⟩

theorem parent_mem_of_containersOf {ds : List Declaration} {ids : List String}
    (hp : ∀ d ∈ ds, ∀ p ∈ d.parent, p ∈ ids) : ∀ c ∈ containersOf ds, ∀ p ∈ c.parent, p ∈ ids := by
  intro c hc
  obtain ⟨d, hd, rfl⟩ := List.mem_map.mp hc
  exact hp d (List.mem_filter.mp hd).1

/-- Parents stay right when declarations with other identifiers are added. -/
theorem parentDiagnostics_append {ds es : List Declaration}
    (hn : ((ds ++ es).map (·.id)).Nodup) (hds : parentDiagnostics ds = [])
    (hes : parentDiagnostics es = []) : parentDiagnostics (ds ++ es) = [] := by
  have hn' := hn
  rw [List.map_append, List.nodup_append] at hn'
  obtain ⟨hnds, hnes, hdisjoint⟩ := hn'
  obtain ⟨hparents, hacyclic⟩ := (parentDiagnostics_eq_nil_iff hnds).mp hds
  obtain ⟨hparents', hacyclic'⟩ := (parentDiagnostics_eq_nil_iff hnes).mp hes
  rw [parentDiagnostics_eq_nil_iff hn, containersOf_append]
  constructor
  · simp only [List.map_append, List.forall_mem_append]
    exact ⟨fun d hd p hp => List.mem_append_left _ (hparents d hd p hp),
      fun d hd p hp => List.mem_append_right _ (hparents' d hd p hp)⟩
  · apply hacyclic.append hacyclic' (parent_mem_of_containersOf hparents)
      (parent_mem_of_containersOf hparents')
    intro x hx hx'
    exact hdisjoint x (mem_map_id_of_containersOf hx) x (mem_map_id_of_containersOf hx') rfl

/-- Two scans without diagnostics give one without, when their lines do not touch. -/
theorem close_errors_append (ha : Apart h k) (hh : (scanner h).close.errors = [])
    (hk : (scanner k).close.errors = []) : (scanner (k ++ h)).close.errors = [] := by
  obtain ⟨hdiag, -, hends, hparents⟩ := (close_errors_eq_nil_iff_parts h).mp hh
  obtain ⟨hdiag', hopen, hends', hparents'⟩ := (close_errors_eq_nil_iff_parts k).mp hk
  have hnodup := nodup_kept (k ++ h)
  rw [kept_append ha] at hnodup
  rw [close_errors_eq_nil_iff_parts, diagnostics_append ha, openBlocks_append ha, links_append,
    kept_append ha, List.map_append]
  refine ⟨by rw [hdiag, hdiag']; rfl, hopen, ?_, parentDiagnostics_append hnodup hparents hparents'⟩
  rw [List.forall_mem_append]
  constructor
  · intro m hm
    exact (hends m hm).imp (List.mem_append_left _) (List.mem_append_left _)
  · intro m hm
    exact (hends' m hm).imp (List.mem_append_right _) (List.mem_append_right _)

/-- The items of a document have the identifiers that lines declare. -/
theorem mem_map_id_items_document (h : List Line) (t a : String) :
    a ∈ ((scanner h).document t).items.map (·.id) ↔ ∃ l ∈ h, l.declares a = true := by
  have hkept : a ∈ (kept h).map (·.id) ↔ ∃ l ∈ h, l.declares a = true := by
    have hnone := not_congr (find?_kept_eq_none_iff h a)
    simpa using hnone
  rw [← hkept, Document.items, document_nodes, document_containers, containersOf]
  simp only [List.map_append, List.map_map, List.mem_append, List.mem_map, List.mem_filter]
  constructor
  · rintro (⟨d, ⟨hd, -⟩, rfl⟩ | ⟨d, ⟨hd, -⟩, rfl⟩) <;> exact ⟨d, hd, rfl⟩
  · rintro ⟨d, hd, rfl⟩
    cases hc : d.isContainer with
    | true => exact .inl ⟨d, ⟨hd, hc⟩, rfl⟩
    | false => exact .inr ⟨d, ⟨hd, by simp [hc]⟩, rfl⟩

/-- The document of lines after others that they do not touch: the items of both, and the links of
both with identifiers by their places. -/
theorem document_append (ha : Apart h k) (hh : (scanner h).close.errors = [])
    (hk : (scanner k).close.errors = []) (t : String) :
    ((scanner (k ++ h)).document t).nodes =
        ((scanner h).document t).nodes ++ ((scanner k).document t).nodes ∧
      ((scanner (k ++ h)).document t).containers =
        ((scanner h).document t).containers ++ ((scanner k).document t).containers ∧
      ((scanner (k ++ h)).document t).links =
        (((scanner h).document t).links ++ ((scanner k).document t).links).mapIdx Link.placed := by
  refine ⟨?_, ?_, ?_⟩
  · rw [document_nodes, document_nodes, document_nodes, kept_append ha, List.filter_append,
      List.map_append]
  · rw [document_containers, document_containers, document_containers, kept_append ha,
      containersOf_append]
  · rw [document_links (close_errors_append ha hh hk), document_links hh, document_links hk,
      links_append]
    apply List.ext_getElem
    · simp
    · intro i _ _
      simp only [List.getElem_mapIdx, List.getElem_append, List.length_mapIdx]
      split <;> rfl

theorem document_title_append_of_left (hh : title? h = none) (t : String) :
    ((scanner (k ++ h)).document t).title = ((scanner k).document t).title := by
  rw [document_title, document_title, title?_append, hh, Option.none_or]

theorem document_title_append_of_right (hk : title? k = none) (t : String) :
    ((scanner (k ++ h)).document t).title = ((scanner h).document t).title := by
  rw [document_title, document_title, title?_append, hk, Option.or_none]

end History

/-- Whether some line of a text is a title. -/
def HasTitle (source : String) : Prop :=
  ∃ l ∈ sourceLines source, l.kind = .title

instance (source : String) : Decidable (HasTitle source) :=
  inferInstanceAs (Decidable (∃ l ∈ sourceLines source, l.kind = .title))

theorem title?_of_not_hasTitle {source : String} (h : ¬HasTitle source) {l : Line}
    (hl : l ∈ sourceLines source) : l.title? = none := by
  have hk : l.kind ≠ .title := fun hk => h ⟨l, hl, hk⟩
  simp [Line.title?, hk]

theorem title?_sourceLines_of_not_hasTitle {source : String} (h : ¬HasTitle source) :
    History.title? (sourceLines source).reverse = none := by
  rw [History.title?, List.reverse_reverse, List.findSome?_eq_none_iff]
  exact fun l hl => title?_of_not_hasTitle h hl

theorem sourceLines_append (source source' : String) :
    sourceLines (source ++ "\n" ++ source') =
      sourceLines source ++ (sourceLines source').map
        (Line.renumber fun n => n + (lines source.toList).length) := by
  have hlines : lines (source ++ "\n" ++ source').toList =
      lines source.toList ++ lines source'.toList := by
    rw [String.toList_append, String.toList_append, List.append_assoc]
    exact splitOn_append '\n' source.toList source'.toList
  rw [sourceLines, hlines, List.mapIdx_append]
  congr 1
  apply List.ext_getElem
  · simp [sourceLines]
  · intro i _ _
    have hnumber : ((i + (lines source.toList).length : Nat) : Int) + 1 =
        (i : Int) + 1 + (lines source.toList).length := by
      omega
    simp [sourceLines, Line.renumber, Line.ofText, ← hnumber]

/-- The lines of two texts do not touch when both are read, they declare other identifiers, and
not both have a title. -/
theorem apart_of_parse {defaultTitle source source' : String} {d d' : Document Binary64}
    (hd : parse defaultTitle source = .success d) (hd' : parse defaultTitle source' = .success d')
    (hids : ∀ a ∈ d.items.map (·.id), a ∉ d'.items.map (·.id))
    (htitle : ¬(HasTitle source ∧ HasTitle source')) (ρ : Int → Int) :
    History.Apart (sourceLines source).reverse
      ((sourceLines source').reverse.map (Line.renumber ρ)) := by
  rw [History.parse_eq_outcome, Scanner.outcome_eq_success_iff] at hd hd'
  obtain ⟨herrors, rfl⟩ := hd
  obtain ⟨-, rfl⟩ := hd'
  refine ⟨((History.close_errors_eq_nil_iff_parts _).mp herrors).2.1, ?_, ?_⟩
  · intro l hl e he m hm
    obtain ⟨k, hk, rfl⟩ := List.mem_map.mp hl
    have hdeclares : k.declares e.id = true := by
      rw [← Line.declares_renumber ρ, Line.declares, he]
      simp
    -- otherwise the identifier would be in both documents
    by_contra hm'
    refine hids e.id ?_ ?_
    · exact (History.mem_map_id_items_document _ _ _).mpr ⟨m, hm, by simpa using hm'⟩
    · exact (History.mem_map_id_items_document _ _ _).mpr ⟨k, hk, hdeclares⟩
  · by_cases h : HasTitle source
    · right
      intro l hl
      obtain ⟨k, hk, rfl⟩ := List.mem_map.mp hl
      rw [Line.title?_renumber, title?_of_not_hasTitle (fun h' => htitle ⟨h, h'⟩)
        (List.mem_reverse.mp hk), Option.map_none]
    · exact .inl (title?_sourceLines_of_not_hasTitle h)

/-- A text after another one, when both are read, no identifier is declared in both and not both
have a title: the whole text is read, and its document holds the items of the first and then those
of the second, the links in the same way with identifiers by their places, and the title of the
text that has one. -/
theorem parse_append_of_parse {defaultTitle source source' : String} {d d' : Document Binary64}
    (hd : parse defaultTitle source = .success d) (hd' : parse defaultTitle source' = .success d')
    (hids : ∀ a ∈ d.items.map (·.id), a ∉ d'.items.map (·.id))
    (htitle : ¬(HasTitle source ∧ HasTitle source')) :
    ∃ e, parse defaultTitle (source ++ "\n" ++ source') = .success e ∧
      e.nodes = d.nodes ++ d'.nodes ∧
      e.containers = d.containers ++ d'.containers ∧
      e.links = (d.links ++ d'.links).mapIdx Link.placed ∧
      (HasTitle source → e.title = d.title) ∧
      (HasTitle source' → e.title = d'.title) ∧
      (¬HasTitle source → ¬HasTitle source' → e.title = defaultTitle) := by
  let ρ : Int → Int := fun n => n + (lines source.toList).length
  let h := (sourceLines source).reverse
  let k := (sourceLines source').reverse.map (Line.renumber ρ)
  have hapart : History.Apart h k := apart_of_parse hd hd' hids htitle ρ
  have hlines : (sourceLines (source ++ "\n" ++ source')).reverse = k ++ h := by
    rw [sourceLines_append, List.reverse_append, ← List.map_reverse]
  rw [History.parse_eq_outcome, Scanner.outcome_eq_success_iff] at hd hd'
  obtain ⟨hh, rfl⟩ := hd
  obtain ⟨hk, rfl⟩ := hd'
  -- the second text gives the same document with the numbers that its lines get after the first
  have hk' : (History.scanner k).close.errors = [] := by
    have hnumbers := History.map_line_close_renumber ρ (sourceLines source').reverse
    rw [hk, List.map_nil, List.map_nil, List.map_eq_nil_iff] at hnumbers
    exact hnumbers
  have hdoc : (History.scanner k).document defaultTitle =
      (History.scanner (sourceLines source').reverse).document defaultTitle :=
    History.document_renumber ρ defaultTitle _
  have hnone (h' : ¬HasTitle source') : History.title? k = none := by
    rw [History.title?_renumber, title?_sourceLines_of_not_hasTitle h', Option.map_none]
  obtain ⟨hnodes, hcontainers, hlinks⟩ := History.document_append hapart hh hk' defaultTitle
  rw [hdoc] at hnodes hcontainers hlinks
  refine ⟨(History.scanner (k ++ h)).document defaultTitle, ?_, hnodes, hcontainers, hlinks,
    ?_, ?_, ?_⟩
  · rw [History.parse_eq_outcome, hlines, Scanner.outcome_eq_success_iff]
    exact ⟨History.close_errors_append hapart hh hk', rfl⟩
  · intro ht
    exact History.document_title_append_of_right (hnone fun ht' => htitle ⟨ht, ht'⟩) _
  · intro ht'
    have hh' := title?_sourceLines_of_not_hasTitle fun ht => htitle ⟨ht, ht'⟩
    exact (History.document_title_append_of_left hh' _).trans (congrArg Document.title hdoc)
  · intro ht ht'
    rw [History.document_title_append_of_left (title?_sourceLines_of_not_hasTitle ht),
      History.document_title, hnone ht']
    rfl

/-- A block and a link after a title, and then a second block with a link of its own. -/
theorem parse_append_of_parse_blocks :
    ∃ d d' e,
      parse "Plan" "title: \"T\"\ncontainer c: \"C\" \x7b\nnode a: \"A\"\n\x7d\na -> c" =
          .success d ∧
        parse "Plan" "container e: \"E\" \x7b\nnode b: \"B\"\n\x7d\nb <-> e: \"in\"" =
          .success d' ∧
        parse "Plan" ("title: \"T\"\ncontainer c: \"C\" \x7b\nnode a: \"A\"\n\x7d\na -> c" ++
          "\n" ++ "container e: \"E\" \x7b\nnode b: \"B\"\n\x7d\nb <-> e: \"in\"") =
          .success e ∧
        e.nodes = d.nodes ++ d'.nodes ∧ e.containers = d.containers ++ d'.containers ∧
        e.links = (d.links ++ d'.links).mapIdx Link.placed ∧ e.title = d.title := by
  have hcheck : (parse "Plan"
      "title: \"T\"\ncontainer c: \"C\" \x7b\nnode a: \"A\"\n\x7d\na -> c").document?.any
        (fun d => d.items.map (·.id) = ["c", "a"]) = true := by
    decide +kernel
  have hcheck' : (parse "Plan"
      "container e: \"E\" \x7b\nnode b: \"B\"\n\x7d\nb <-> e: \"in\"").document?.any
        (fun d => d.items.map (·.id) = ["e", "b"]) = true := by
    decide +kernel
  obtain ⟨d, hd, hids⟩ := (Option.any_eq_true _ _).mp hcheck
  obtain ⟨d', hd', hids'⟩ := (Option.any_eq_true _ _).mp hcheck'
  rw [decide_eq_true_eq] at hids hids'
  have hread := parse_eq_success_of_document? hd
  have hread' := parse_eq_success_of_document? hd'
  obtain ⟨e, he, hnodes, hcontainers, hlinks, htitle, -⟩ :=
    parse_append_of_parse hread hread' (by rw [hids, hids']; decide) (by decide +kernel)
  exact ⟨d, d', e, hread, hread', he, hnodes, hcontainers, hlinks, htitle (by decide +kernel)⟩

end Source

end ArchDiagram
