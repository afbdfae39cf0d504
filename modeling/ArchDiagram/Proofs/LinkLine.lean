import ArchDiagram.Proofs.History
import ArchDiagram.Proofs.LinkGrammar
import ArchDiagram.Proofs.Written

/-!
How written links and titles are read. A written link is read as the same link, unless its source
is a keyword: its line is then a declaration, and no declaration can be read from it.
-/

namespace ArchDiagram.Source

open Text

theorem findArrow_quoted {text : List Char} (hq : '"' ∉ text) :
    findArrow ('"' :: (text ++ ['"'])) = none := by
  -- nothing is looked for between the quotes
  have hinside : findArrow.search true (text ++ ['"']) = none := by
    induction text with
    | nil => rfl
    | cons c text ih =>
      simp only [List.mem_cons, not_or] at hq
      rw [List.cons_append, findArrow.search, if_neg (Ne.symm hq.1), if_pos rfl, ih hq.2]
      rfl
  unfold findArrow
  rw [findArrow.search, if_pos rfl, Bool.not_false, hinside]
  rfl

/-- The target of a link and its label. -/
def linkBody (l : Link) : List Char :=
  l.target.toList ++ labelText l.label

theorem linkText_eq (l : Link) :
    linkText l = l.source.toList ++ ' ' :: ((arrowOf l).chars ++ ' ' :: linkBody l) :=
  rfl

/-- The pieces of a written link. -/
def linkParts (l : Link) : LinkParts :=
  { before := []
    source := l.source.toList
    beforeArrow := [' ']
    arrow := arrowOf l
    afterArrow := [' ']
    target := l.target.toList
    label := l.label.map fun label => ⟨[], [' '], label.toList⟩
    after := [] }

theorem body_linkParts (l : Link) : (linkParts l).body = linkBody l := by
  cases hl : l.label <;> simp [linkParts, LinkParts.body, linkBody, labelText, quoted, hl]

theorem text_linkParts (l : Link) : (linkParts l).text = linkText l := by
  rw [LinkParts.text, LinkParts.body_append_after, body_linkParts, linkText_eq]
  simp [linkParts, LinkParts.left]

theorem grammatical_linkParts {l : Link} (hw : WritableLink l) : (linkParts l).Grammatical := by
  have hspace : ∀ c ∈ [' '], isBlank c = true := forall_mem_of_all (by decide)
  refine ⟨List.forall_mem_nil _, hw.source, hspace, hspace, hw.target, ?_, List.forall_mem_nil _⟩
  intro k hk
  obtain ⟨label, hlabel, rfl⟩ := Option.map_eq_some_iff.mp hk
  exact ⟨List.forall_mem_nil _, hspace, (hw.label label hlabel).1⟩

theorem trimmed_linkBody {l : Link} (hw : WritableLink l) : Trimmed (linkBody l) :=
  body_linkParts l ▸ (grammatical_linkParts hw).trimmed_body

theorem linkBody_ne_nil {l : Link} (hw : WritableLink l) : linkBody l ≠ [] := by
  have hne := ne_nil_of_isIdentifier hw.target
  simp [linkBody, hne]

theorem trimmed_arrow_linkBody {l : Link} (hw : WritableLink l) :
    Trimmed ((arrowOf l).chars ++ ' ' :: linkBody l) := by
  have harrow : (arrowOf l).chars ≠ [] ∧ ∀ c ∈ (arrowOf l).chars, isBlank c = false := by
    cases arrowOf l <;> exact ⟨by decide, forall_mem_of_all (by decide)⟩
  exact trimmed_append harrow.1 harrow.2 (linkBody_ne_nil hw) (trimmed_linkBody hw)

theorem trimmed_linkText {l : Link} (hw : WritableLink l) : Trimmed (linkText l) :=
  trimmed_append (ne_nil_of_isIdentifier hw.source) (isBlank_of_mem_identifier hw.source) (by simp)
    (trimmed_arrow_linkBody hw)

theorem newline_not_mem_linkText {l : Link} (hw : WritableLink l) : '\n' ∉ linkText l := by
  have hsource := newline_not_mem (isBlank_of_mem_identifier hw.source)
  have htarget := newline_not_mem (isBlank_of_mem_identifier hw.target)
  have harrow : '\n' ∉ (arrowOf l).chars := by cases arrowOf l <;> decide
  have hlabel : '\n' ∉ labelText l.label := by
    cases hl : l.label with
    | none => simp [labelText]
    | some label => simp [labelText, newline_not_mem_quoted (hw.label label hl)]
  simp [linkText, hsource, htarget, harrow, hlabel]

/-- A written link is read back. -/
theorem read_linkText {l : Link} (hw : WritableLink l) (k : Line) (hk : k.text = linkText l) :
    LinkStatement.read k =
      .ok { source := l.source
            target := l.target
            line := k.number
            bidirectional := l.bidirectional
            label := l.label } := by
  have htwo : decide ((linkParts l).arrow = .twoWay) = l.bidirectional := by
    change decide (arrowOf l = .twoWay) = l.bidirectional
    unfold arrowOf
    cases l.bidirectional <;> rfl
  rw [(grammatical_linkParts hw).read_eq (hk.trans (text_linkParts l).symm)]
  rw [LinkParts.statement, htwo]
  simp [linkParts, Function.comp_def]

/-- A written link is a link, unless its source is a keyword. -/
theorem classify_linkText {l : Link} (hw : WritableLink l) :
    classify (linkText l) = if IsKeyword l.source then .declaration else .link := by
  have hsome : (findArrow (linkText l)).isSome = true := by
    rw [← text_linkParts, (grammatical_linkParts hw).findArrow_eq]
    rfl
  have hword : (l.source.toList = "node".toList || l.source.toList = "container".toList) = true ↔
      IsKeyword l.source := by
    simp only [Bool.or_eq_true, decide_eq_true_eq, String.toList_inj, IsKeyword]
  rw [linkText_eq] at hsome ⊢
  rw [classify_append (ne_nil_of_isIdentifier hw.source) (isBlank_of_mem_identifier hw.source)
    (not_mem_identifier hw.source rfl), if_pos hsome]
  simp only [hword]

theorem kind_ofText_link {l : Link} (hw : WritableLink l) (n : Int) :
    (Line.ofText n (linkText l)).kind =
      if IsKeyword l.source then .declaration else .link := by
  rw [Line.kind_ofText, (trimmed_linkText hw).trim_eq, classify_linkText hw]

theorem link?_linkText {l : Link} (hw : WritableLink l) (hs : ¬IsKeyword l.source) (n : Int) :
    (Line.ofText n (linkText l)).link? =
      some { source := l.source
             target := l.target
             line := n
             bidirectional := l.bidirectional
             label := l.label } := by
  have htext : (Line.ofText n (linkText l)).text = linkText l := (trimmed_linkText hw).trim_eq
  have hkind : (Line.ofText n (linkText l)).kind = .link := by
    rw [kind_ofText_link hw, if_neg hs]
  exact History.link?_eq_some_iff.mpr ⟨hkind, read_linkText hw _ htext⟩

/-- After a keyword stands an arrow, and no name starts like that. -/
theorem declaration?_linkText {l : Link} (hw : WritableLink l) (n : Int) :
    (Line.ofText n (linkText l)).declaration? = none := by
  have htrim := (trimmed_linkText hw).trim_eq
  rw [Option.eq_none_iff_forall_ne_some]
  intro d hd
  obtain ⟨-, hread⟩ := History.declaration?_eq_some_iff.mp hd
  obtain ⟨word, rest, id, label, tail, -, hword, hhead, -⟩ := Declaration.read_eq_ok_iff.mp hread
  obtain ⟨before, gap, -, -, -, hid, hident, hrest⟩ := readHead_eq_ok_iff.mp hhead
  rw [Line.text_ofText, htrim, linkText_eq, splitWord?_append (ne_nil_of_isIdentifier hw.source)
    (isBlank_of_mem_identifier hw.source), Option.some.injEq, Prod.mk.injEq] at hword
  rw [trimLeft_of_head (trimmed_arrow_linkBody hw).head] at hword
  rw [← hword.2, (trimmed_arrow_linkBody hw).trim_eq] at hrest
  -- the rest starts with the first character of the arrow
  obtain ⟨c, cs, hc, hstart, harrow⟩ : ∃ c cs, isBlank c = false ∧ isIdentifierStart c = false ∧
      (arrowOf l).chars = c :: cs := by
    cases arrowOf l
    · exact ⟨'-', ['>'], rfl, rfl, rfl⟩
    · exact ⟨'<', ['-', '>'], rfl, rfl, rfl⟩
  rw [harrow] at hrest
  cases before with
  | nil =>
    rw [← hid] at hident
    exact absurd rfl (ne_nil_of_isIdentifier hident)
  | cons d before =>
    obtain ⟨rfl, -⟩ := List.cons.inj hrest
    have htrimmed : trim (c :: before) = c :: trimRight before := by
      rw [trim, trimLeft_of_not_blank hc]
      exact trimRight_append (a := [c]) (by simpa using hc) before
    rw [← hid, htrimmed, isIdentifier, hstart, Bool.false_and] at hident
    cases hident

theorem findArrow_titleText {t : String} (ht : Quotable t) : findArrow (titleText t) = none := by
  have hword : findArrow ("title ".toList ++ quoted t) = _ :=
    findArrow_append (forall_mem_of_all (by decide)) (by simp [quoted])
  rw [show findArrow (quoted t) = none from findArrow_quoted ht.1] at hword
  exact hword

/-- A written title is a title. -/
theorem classify_titleText {t : String} (ht : Quotable t) : classify (titleText t) = .title := by
  have hnone : (findArrow ("title".toList ++ ' ' :: quoted t)).isSome = false := by
    rw [show findArrow ("title".toList ++ ' ' :: quoted t) = none from findArrow_titleText ht]
    rfl
  have hclass := classify_append (w := "title".toList) (by decide)
    (forall_mem_of_all (by decide)) (by decide) (quoted t)
  rw [hnone] at hclass
  exact hclass

theorem trimmed_titleText (t : String) : Trimmed (titleText t) := by
  have hquoted : Trimmed (quoted t) := by
    refine ⟨by rintro c ⟨⟩; rfl, ?_⟩
    rw [quoted, ← List.cons_append, List.getLast?_concat]
    rintro c ⟨⟩
    rfl
  exact trimmed_append (w := "title".toList) (by decide) (forall_mem_of_all (by decide))
    (by simp [quoted]) hquoted

theorem newline_not_mem_titleText {t : String} (ht : Quotable t) : '\n' ∉ titleText t := by
  intro hn
  rcases List.mem_append.mp hn with hn | hn
  · exact absurd hn (by decide)
  · rcases List.mem_cons.mp hn with hn | hn
    · cases hn
    · exact newline_not_mem_quoted ht hn

theorem form_titleText {t : String} (ht : Quotable t) :
    TitleForm ((titleText t).drop 5) t.toList :=
  ⟨[' '], [], [], [], forall_mem_of_all (by decide), by simp, by simp, .inl rfl, ht.1, by
    change ' ' :: '"' :: (t.toList ++ ['"']) = _
    simp⟩

end ArchDiagram.Source
