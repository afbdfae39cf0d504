import ArchDiagram.Proofs.Acceptance
import ArchDiagram.Proofs.Reread

/-!
Reading a whole written text. Its lines hold the statements of the document one by one, no line
opens a block, and so the text is read as the document again, up to what single lines do not tell
and the numbering of links.
-/

namespace ArchDiagram.Source

open Text

/-- Lines that hold statements, one each. -/
def LinesOf (ss : List Statement) (ls : List Line) : Prop :=
  List.Forall₂ (fun s l => ∃ n, l = Line.ofText n s.text) ss ls

theorem linesOf_mapIdx (ss : List Statement) (number : Nat → Int) :
    LinesOf ss ((ss.map Statement.text).mapIdx fun i raw => Line.ofText (number i) raw) := by
  induction ss generalizing number with
  | nil => exact .nil
  | cons s ss ih =>
    rw [List.map_cons, List.mapIdx_cons]
    exact .cons ⟨_, rfl⟩ (ih fun i => number (i + 1))

/-- The lines of a written text hold its statements, and the last of them is empty. -/
theorem linesOf_source {ss : List Statement} (hw : ∀ s ∈ ss, s.Writable) :
    LinesOf (ss ++ [.gap])
      (sourceLines (String.ofList ((ss.map Statement.text).flatMap (· ++ ['\n'])))) := by
  have hnewline : ∀ l ∈ ss.map Statement.text, '\n' ∉ l := by
    intro l hl
    obtain ⟨s, hs, rfl⟩ := List.mem_map.mp hl
    exact Statement.newline_not_mem_text (hw s hs)
  have hsplit := splitOn_flatMap hnewline
  unfold sourceLines lines
  rw [String.toList_ofList, hsplit, show (ss.map Statement.text) ++ [[]] =
    (ss ++ [Statement.gap]).map Statement.text by simp [Statement.text]]
  exact linesOf_mapIdx _ fun i => i + 1

/-- What is found on each line is found by its statement. -/
theorem LinesOf.filterMap_eq {β : Type} {ss : List Statement} {ls : List Line} (h : LinesOf ss ls)
    {f : Line → Option β} {g : Statement → Option β}
    (hf : ∀ s ∈ ss, ∀ n, f (Line.ofText n s.text) = g s) : ls.filterMap f = ss.filterMap g := by
  induction h with
  | nil => rfl
  | cons hl _ ih =>
    obtain ⟨n, rfl⟩ := hl
    rw [List.filterMap_cons, List.filterMap_cons, hf _ (by simp),
      ih fun s hs => hf s (by simp [hs])]

theorem LinesOf.forall_iff {ss : List Statement} {ls : List Line} (h : LinesOf ss ls)
    {P : Line → Prop} {Q : Statement → Prop}
    (hp : ∀ s ∈ ss, ∀ n, P (Line.ofText n s.text) ↔ Q s) : (∀ l ∈ ls, P l) ↔ ∀ s ∈ ss, Q s := by
  induction h with
  | nil => simp
  | cons hl _ ih =>
    obtain ⟨n, rfl⟩ := hl
    rw [List.forall_mem_cons, List.forall_mem_cons, hp _ (by simp),
      ih fun s hs => hp s (by simp [hs])]

theorem LinesOf.countP_eq {ss : List Statement} {ls : List Line} (h : LinesOf ss ls)
    {p : Line → Bool} {q : Statement → Bool}
    (hp : ∀ s ∈ ss, ∀ n, p (Line.ofText n s.text) = q s) : ls.countP p = ss.countP q := by
  induction h with
  | nil => rfl
  | cons hl _ ih =>
    obtain ⟨n, rfl⟩ := hl
    rw [List.countP_cons, List.countP_cons, hp _ (by simp), ih fun s hs => hp s (by simp [hs])]

theorem LinesOf.exists_statement {ss : List Statement} {ls : List Line} (h : LinesOf ss ls)
    {l : Line} (hl : l ∈ ls) : ∃ s ∈ ss, ∃ n, l = Line.ofText n s.text :=
  (h.forall_iff (P := fun l => ∃ s ∈ ss, ∃ n, l = Line.ofText n s.text) (Q := (· ∈ ss))
    fun s hs n => ⟨fun _ => hs, fun _ => ⟨s, hs, n, rfl⟩⟩).mpr (fun _ hs => hs) l hl

theorem innermost?_of_no_opens {h : List Line} (ho : ∀ l ∈ h, l.opens = false) (closed : Nat) :
    innermost? closed h = none := by
  induction h generalizing closed with
  | nil => rfl
  | cons l before ih =>
    have hbefore := ih fun k hk => ho k (by simp [hk])
    rw [innermost?.eq_def]
    dsimp only
    rw [if_neg (by simp [ho l])]
    split
    · exact hbefore _
    · exact hbefore _

/-- Without blocks every declaration has the parent that it states. -/
theorem declared_of_no_opens {before ls : List Line} (hb : ∀ l ∈ before, l.opens = false)
    (hl : ∀ l ∈ ls, l.opens = false) : declared before ls = ls.filterMap Line.declaration? := by
  induction ls generalizing before with
  | nil => rfl
  | cons l ls ih =>
    have hparent (e : Declaration) : effectiveParent before e = e.parent := by
      rw [effectiveParent, innermost?_of_no_opens hb]
      simp
    have hnext : ∀ k ∈ l :: before, k.opens = false := by
      intro k hk
      rcases List.mem_cons.mp hk with rfl | hk
      · exact hl k (by simp)
      · exact hb k hk
    rw [declared, ih hnext fun k hk => hl k (by simp [hk])]
    cases hd : l.declaration? <;> simp [hd, hparent]

theorem balanced_of_no_braces {ls : List Line} (ho : ∀ l ∈ ls, l.opens = false)
    (hc : ∀ l ∈ ls, l.closes = false) : Balanced ls := by
  have hopens {p : List Line} (hp : p <+: ls) : p.countP Line.opens = 0 :=
    List.countP_eq_zero.mpr fun l hl => by simp [ho l (hp.subset hl)]
  have hcloses {p : List Line} (hp : p <+: ls) : p.countP Line.closes = 0 :=
    List.countP_eq_zero.mpr fun l hl => by simp [hc l (hp.subset hl)]
  refine ⟨fun p hp => ?_, ?_⟩
  · rw [hopens hp, hcloses hp]
  · rw [hopens List.prefix_rfl, hcloses List.prefix_rfl]

/-- The statements on the lines of a written document, with the empty line at the end. -/
def lineStatements (defaultTitle : String) (d : Document Binary64) : List Statement :=
  statements defaultTitle d ++ [.gap]

theorem forall_lineStatements {P : Statement → Prop} (hg : P .gap) (defaultTitle : String)
    (d : Document Binary64) :
    (∀ s ∈ lineStatements defaultTitle d, P s) ↔ ∀ s ∈ statements defaultTitle d, P s := by
  rw [lineStatements, List.forall_mem_append]
  simp [hg]

/-- What the statements of a document hold apart from the title. -/
theorem filterMap_lineStatements {β : Type} {g : Statement → Option β}
    (ht : ∀ t, g (.title t) = none) (hg : g .gap = none) (defaultTitle : String)
    (d : Document Binary64) :
    (lineStatements defaultTitle d).filterMap g =
      d.containers.filterMap (fun c => g (.container c)) ++
        d.nodes.filterMap (fun n => g (.node n)) ++ d.links.filterMap fun l => g (.link l) := by
  have htitle : (titleStatements defaultTitle d).filterMap g = [] := by
    unfold titleStatements
    split <;> simp [ht, hg]
  have hgap : (gapStatements d).filterMap g = [] := by
    unfold gapStatements
    split <;> simp [hg]
  simp [lineStatements, statements, List.filterMap_append, List.filterMap_map, htitle, hgap, hg]

theorem map_filter_eq_filterMap {α β : Type} (as : List α) (p : α → Bool) (f : α → β) :
    (as.filter p).map f = as.filterMap fun a => if p a then some (f a) else none := by
  rw [← List.filterMap_eq_map, List.filterMap_filter]
  simp

theorem mapIdx_map {α β γ : Type} (as : List α) (f : α → β) (g : Nat → β → γ) :
    (as.map f).mapIdx g = as.mapIdx fun i a => g i (f a) := by
  induction as generalizing g with
  | nil => rfl
  | cons a as ih => rw [List.map_cons, List.mapIdx_cons, List.mapIdx_cons, ih]

theorem eq_title_of_kind {defaultTitle : String} {d : Document Binary64} {s : Statement}
    (hs : s ∈ lineStatements defaultTitle d) (hk : s.kind = .title) :
    s = .title d.title := by
  have htitle : ∀ s ∈ titleStatements defaultTitle d, s.kind = .title → s = .title d.title := by
    unfold titleStatements
    split <;> simp [Statement.kind]
  have hgap : ∀ s ∈ gapStatements d, s.kind ≠ .title := by
    unfold gapStatements
    split <;> simp [Statement.kind]
  simp only [lineStatements, statements, List.mem_append, List.mem_map, List.mem_singleton] at hs
  rcases hs with ((((hs | ⟨c, -, rfl⟩) | ⟨n, -, rfl⟩) | hs) | ⟨l, -, rfl⟩) | rfl
  · exact htitle s hs hk
  · cases hk
  · cases hk
  · exact absurd hk (hgap s hs)
  · cases hk
  · cases hk

theorem countP_title_lineStatements (defaultTitle : String) (d : Document Binary64) :
    (lineStatements defaultTitle d).countP (fun s => s.kind = .title) ≤ 1 := by
  have htitle : (titleStatements defaultTitle d).countP (fun s => s.kind = .title) ≤ 1 := by
    unfold titleStatements
    split <;> simp [Statement.kind]
  have hgap : (gapStatements d).countP (fun s => s.kind = .title) = 0 := by
    unfold gapStatements
    split <;> simp [Statement.kind]
  have hnone {α : Type} (as : List α) {f : α → Statement} (hf : ∀ a, (f a).kind ≠ .title) :
      (as.map f).countP (fun s => s.kind = .title) = 0 := by
    rw [List.countP_eq_zero, List.forall_mem_map]
    simp [hf]
  have hcontainers := hnone d.containers (f := .container) (by simp [Statement.kind])
  have hnodes := hnone d.nodes (f := .node) (by simp [Statement.kind])
  have hlinks := hnone d.links (f := .link) (by simp [Statement.kind])
  have hlast : [Statement.gap].countP (fun s => s.kind = .title) = 0 := rfl
  simp only [lineStatements, statements, List.countP_append]
  omega

section Lines

variable {defaultTitle : String} {d : Document Binary64} {ls : List Line}
  (hw : ∀ s ∈ lineStatements defaultTitle d, s.Writable)
  (hr : ∀ s ∈ lineStatements defaultTitle d, s.Readable)
  (hls : LinesOf (lineStatements defaultTitle d) ls)

include hw hr hls

theorem opens_of_linesOf : ∀ l ∈ ls, l.opens = false := by
  intro l hl
  obtain ⟨s, hs, n, rfl⟩ := hls.exists_statement hl
  exact Statement.opens_ofText (hw s hs) (hr s hs) n

theorem closes_of_linesOf : ∀ l ∈ ls, l.closes = false := by
  intro l hl
  obtain ⟨s, hs, n, rfl⟩ := hls.exists_statement hl
  exact Statement.closes_ofText (hw s hs) (hr s hs) n

/-- Something that written lines declare, by their statements. -/
theorem filterMap_declared {β : Type} (f : Declaration → Option β) (g : Statement → Option β)
    (hg : ∀ s n, (s.declaration? n).bind f = g s) :
    (declared [] ls).filterMap f = (lineStatements defaultTitle d).filterMap g := by
  rw [declared_of_no_opens (by simp) (opens_of_linesOf hw hr hls), List.filterMap_filterMap]
  apply hls.filterMap_eq
  intro s hs n
  rw [Statement.declaration?_ofText (hw s hs) (hr s hs), hg]

/-- The items that written lines declare. -/
theorem map_toItem_declared : (declared [] ls).map Declaration.toItem = d.reread.items := by
  rw [← List.filterMap_eq_map, filterMap_declared hw hr hls _
    (fun s => (s.declaration? 0).map Declaration.toItem) (fun s n => by cases s <;> rfl),
    filterMap_lineStatements (fun _ => rfl) rfl]
  change d.containers.filterMap (some ∘ Item.reread) ++
    d.nodes.filterMap (some ∘ fun n => n.toItem.reread) ++ d.links.filterMap (fun _ => none) = _
  rw [List.filterMap_eq_map, List.filterMap_eq_map]
  simp [Document.reread, Document.items, Node.reread]

theorem containersOf_declared : containersOf (declared [] ls) = d.reread.containers := by
  unfold containersOf
  rw [map_filter_eq_filterMap, filterMap_declared hw hr hls _
    (fun s => (s.declaration? 0).bind fun e => if e.isContainer then some e.toItem else none)
    (fun s n => by cases s <;> rfl), filterMap_lineStatements (fun _ => rfl) rfl]
  change d.containers.filterMap (some ∘ Item.reread) ++ d.nodes.filterMap (fun _ => none) ++
    d.links.filterMap (fun _ => none) = _
  rw [List.filterMap_eq_map]
  simp [Document.reread]

theorem nodesOf_declared : ((declared [] ls).filter (!·.isContainer)).map Declaration.toNode =
    d.reread.nodes := by
  rw [map_filter_eq_filterMap, filterMap_declared hw hr hls _
    (fun s => (s.declaration? 0).bind fun e => if !e.isContainer then some e.toNode else none)
    (fun s n => by cases s <;> rfl), filterMap_lineStatements (fun _ => rfl) rfl]
  change d.containers.filterMap (fun _ => none) ++ d.nodes.filterMap (some ∘ Node.reread) ++
    d.links.filterMap (fun _ => none) = _
  rw [List.filterMap_eq_map]
  simp [Document.reread]

theorem links_declared :
    (ls.filterMap Line.link?).mapIdx LinkStatement.numbered = d.reread.links := by
  -- apart from line numbers the links are those written; positions then number them again
  have hplain : (ls.filterMap Line.link?).map (LinkStatement.numbered 0) =
      d.links.map fun l => { l with id := "l" ++ toString 1 } := by
    rw [List.map_filterMap, hls.filterMap_eq
      (g := fun s => (s.link? 0).map (LinkStatement.numbered 0))
      (fun s hs n => by rw [Statement.link?_ofText (hw s hs) (hr s hs)]; cases s <;> rfl),
      filterMap_lineStatements (fun _ => rfl) rfl]
    change d.containers.filterMap (fun _ => none) ++ d.nodes.filterMap (fun _ => none) ++
      d.links.filterMap (some ∘ fun l => { l with id := "l" ++ toString 1 }) = _
    rw [List.filterMap_eq_map]
    simp
  have hnumber := congrArg
    (List.mapIdx fun i (l : Link) => { l with id := "l" ++ toString (i + 1) }) hplain
  rw [mapIdx_map, mapIdx_map] at hnumber
  exact hnumber

theorem countP_title_linesOf : ls.countP (fun l => l.kind = .title) ≤ 1 := by
  rw [hls.countP_eq (q := fun s => s.kind = .title) fun s hs n => by
    rw [Statement.kind_ofText (hw s hs) (hr s hs)]]
  exact countP_title_lineStatements defaultTitle d

/-- Written lines hold the document as it is read. -/
theorem holds_linesOf : Holds defaultTitle ls d.reread := by
  refine ⟨?_, ?_, (nodesOf_declared hw hr hls).symm, (containersOf_declared hw hr hls).symm,
    (links_declared hw hr hls).symm⟩
  · intro l hl hk
    obtain ⟨s, hs, n, rfl⟩ := hls.exists_statement hl
    rw [Statement.kind_ofText (hw s hs) (hr s hs)] at hk
    have hwritable := hw s hs
    rw [eq_title_of_kind hs hk] at hwritable ⊢
    rw [Line.text_ofText, show Statement.text (.title d.title) = titleText d.title from rfl,
      (trimmed_titleText d.title).trim_eq]
    exact form_titleText hwritable
  · intro hn
    by_contra hne
    -- another title would have a line
    have hmem : Statement.title d.title ∈ lineStatements defaultTitle d := by
      simp [lineStatements, statements, titleStatements, show d.title ≠ defaultTitle from hne]
    have hkinds := (hls.forall_iff (Q := fun s => s.kind ≠ .title) fun s hs n => by
      rw [Statement.kind_ofText (hw s hs) (hr s hs)]).mp hn
    exact hkinds _ hmem rfl

theorem map_id_declared_linesOf : (declared [] ls).map (·.id) = d.reread.items.map (·.id) := by
  rw [← map_toItem_declared hw hr hls, List.map_map]
  rfl

/-- Well-formed lines have references that lead where they should. -/
theorem resolved_of_wellFormed (hwell : WellFormed ls) : d.reread.Resolved := by
  have hids := map_id_declared_linesOf hw hr hls
  refine ⟨?_, ?_, ?_, ?_⟩
  · rw [← hids]
    exact hwell.distinct
  · intro i hi p hp
    rw [← map_toItem_declared hw hr hls] at hi
    obtain ⟨e, he, rfl⟩ := List.mem_map.mp hi
    have hcontainer := hwell.parents e he p hp
    rw [containersOf_declared hw hr hls] at hcontainer
    exact hcontainer
  · rw [← containersOf_declared hw hr hls]
    exact hwell.acyclic
  · intro l hl
    rw [← links_declared hw hr hls] at hl
    obtain ⟨i, hi, rfl⟩ := List.mem_mapIdx.mp hl
    rw [← hids]
    exact hwell.ends _ (List.getElem_mem hi)

theorem wellFormed_of_resolved (hwell : ∀ l ∈ ls, l.WellFormed) (hresolved : d.reread.Resolved) :
    WellFormed ls := by
  have hids := map_id_declared_linesOf hw hr hls
  refine ⟨hwell, countP_title_linesOf hw hr hls, ?_, ?_, ?_, ?_, ?_⟩
  · rw [hids]
    exact hresolved.distinct
  · exact balanced_of_no_braces (opens_of_linesOf hw hr hls) (closes_of_linesOf hw hr hls)
  · intro k hk
    obtain ⟨i, hi, rfl⟩ := List.mem_iff_getElem.mp hk
    have hlink : LinkStatement.numbered i (ls.filterMap Line.link?)[i] ∈ d.reread.links := by
      rw [← links_declared hw hr hls]
      exact List.mem_mapIdx.mpr ⟨i, hi, rfl⟩
    rw [hids]
    exact hresolved.ends _ hlink
  · intro e he p hp
    have hitem : e.toItem ∈ d.reread.items := by
      rw [← map_toItem_declared hw hr hls]
      exact List.mem_map_of_mem he
    rw [containersOf_declared hw hr hls]
    exact hresolved.parents _ hitem p hp
  · rw [containersOf_declared hw hr hls]
    exact hresolved.acyclic

end Lines

/-- Written lines are well formed exactly when each is taken for what it is and the references of
the document lead where they should. -/
theorem wellFormed_linesOf_iff {defaultTitle : String} {d : Document Binary64} {ls : List Line}
    (hw : ∀ s ∈ lineStatements defaultTitle d, s.Writable)
    (hls : LinesOf (lineStatements defaultTitle d) ls) :
    WellFormed ls ↔
      (∀ s ∈ lineStatements defaultTitle d, s.Readable) ∧ d.reread.Resolved := by
  have hstatements : (∀ l ∈ ls, l.WellFormed) ↔
      ∀ s ∈ lineStatements defaultTitle d, s.Readable :=
    hls.forall_iff fun s hs n => Statement.wellFormed_ofText_iff (hw s hs) n
  constructor
  · intro hwell
    have hr := hstatements.mp hwell.statements
    exact ⟨hr, resolved_of_wellFormed hw hr hls hwell⟩
  · rintro ⟨hr, hresolved⟩
    exact wellFormed_of_resolved hw hr hls (hstatements.mpr hr) hresolved

/-- A written document is read as itself, up to what its text cannot tell apart, exactly when each
statement is taken for what it is and the references lead where they should. -/
theorem parse_write_iff {defaultTitle source : String} {d e : Document Binary64}
    (h : write defaultTitle d = .ok source) :
    parse defaultTitle source = .success e ↔
      (∀ s ∈ statements defaultTitle d, s.Readable) ∧ d.reread.Resolved ∧ e = d.reread := by
  obtain ⟨hwritable, rfl⟩ := write_eq_ok_iff.mp h
  have hls : LinesOf (lineStatements defaultTitle d) _ := linesOf_source hwritable
  have hw := (forall_lineStatements (P := Statement.Writable) trivial defaultTitle d).mpr hwritable
  have hreadable := forall_lineStatements (P := Statement.Readable) trivial defaultTitle d
  rw [parse_eq_success_iff, wellFormed_linesOf_iff hw hls, hreadable, and_assoc]
  refine and_congr_right fun hr => and_congr_right fun _ => ?_
  have hholds := holds_linesOf hw (hreadable.mpr hr) hls
  constructor
  · intro he
    exact he.unique hholds
  · rintro rfl
    exact hholds

end ArchDiagram.Source
