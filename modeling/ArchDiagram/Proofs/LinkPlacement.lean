import ArchDiagram.Proofs.Inert
import ArchDiagram.Proofs.Outcome
import ArchDiagram.Proofs.Renumbering

/-!
Where links stand. A link opens no block, declares nothing and sets no title, and its own fault is
one of its text, so what other lines do is the same with and without the links between them. Texts
that differ in the places of their links have the same document, or as many diagnostics.
-/

namespace ArchDiagram.Source

open Text

def Line.isLink (l : Line) : Bool :=
  l.kind = .link

/-- Whether a line of a text holds a link. -/
def isLinkText (raw : List Char) : Bool :=
  (Line.ofText 0 raw).isLink

/-- Two texts with the same lines, of which the links come in the same order and all others come
in the same order. -/
structure LinksMoved (source source' : String) : Prop where
  links : (lines source.toList).filter isLinkText = (lines source'.toList).filter isLinkText
  others : (lines source.toList).filter (!isLinkText ·) =
    (lines source'.toList).filter (!isLinkText ·)

namespace History

theorem inert_of_isLink {l : Line} (h : (!l.isLink) = false) : l.Inert := by
  have hk : l.kind = .link := by simpa [Line.isLink] using h
  apply Line.inert_of_kind <;> simp [hk]

theorem link?_of_not_isLink {l : Line} (h : l.isLink = false) : l.link? = none := by
  have hk : l.kind ≠ .link := by simpa [Line.isLink] using h
  simp [Line.link?, hk]

/-- The fault of a link does not depend on any line before it. -/
theorem fault?_of_isLink {l : Line} (h : l.isLink = true) (before before' : List Line) :
    fault? before l = fault? before' l := by
  have hk : l.kind = .link := by simpa [Line.isLink] using h
  simp [fault?, hk]

theorem length_diagnostics_cons (l : Line) (before : List Line) :
    (diagnostics (l :: before)).length =
      (diagnostics before).length + (fault? before l).toList.length := by
  rw [diagnostics, List.length_append]
  cases fault? before l <;> rfl

/-- Faults of links and of other lines are counted apart. -/
theorem length_diagnostics (h : List Line) :
    (diagnostics h).length =
      (diagnostics (h.filter Line.isLink)).length +
        (diagnostics (h.filter (!·.isLink))).length := by
  induction h with
  | nil => rfl
  | cons l before ih =>
    cases hl : l.isLink with
    | true =>
      have hfault := fault?_of_isLink hl (before.filter Line.isLink) before
      rw [List.filter_cons_of_pos hl, List.filter_cons_of_neg (by simp [hl]),
        length_diagnostics_cons, length_diagnostics_cons, ih, hfault]
      omega
    | false =>
      rw [List.filter_cons_of_neg (by simp [hl]), List.filter_cons_of_pos (by simp [hl]),
        length_diagnostics_cons, length_diagnostics_cons, ih,
        fault?_filter fun _ => inert_of_isLink]
      omega

/-- Histories with the same links and the same other lines give the same document, and as many
diagnostics. -/
theorem close_of_filters {h h' : List Line}
    (hlinks : h.filter Line.isLink = h'.filter Line.isLink)
    (hothers : h.filter (!·.isLink) = h'.filter (!·.isLink)) :
    (scanner h).close.errors.length = (scanner h').close.errors.length ∧
      ∀ defaultTitle, (scanner h).document defaultTitle = (scanner h').document defaultTitle := by
  have hinert : ∀ l : Line, (!l.isLink) = false → l.Inert := fun _ => inert_of_isLink
  have hkept : kept h = kept h' := by rw [← kept_filter hinert h, hothers, kept_filter hinert]
  have hblocks : openBlocks h = openBlocks h' := by
    rw [← openBlocks_filter hinert h, hothers, openBlocks_filter hinert]
  have htitle : title? h = title? h' := by
    rw [← title?_filter hinert h, hothers, title?_filter hinert]
  have hlinks' : links h = links h' := by
    rw [← links_filter (fun _ => link?_of_not_isLink) h, hlinks,
      links_filter fun _ => link?_of_not_isLink]
  have hfaults : (diagnostics h).length = (diagnostics h').length := by
    rw [length_diagnostics h, hlinks, hothers, ← length_diagnostics]
  constructor
  · simp [Scanner.close, Scanner.unclosed, Scanner.unresolved, Scanner.declaredIds, scanner, hkept,
      hblocks, hlinks', hfaults]
  · intro defaultTitle
    simp [Scanner.document, Scanner.declaredIds, scanner, hkept, htitle, hlinks']

end History

/-- The history of a source whose lines have no numbers of their own. -/
def unnumbered (source : String) : List Line :=
  ((lines source.toList).map (Line.ofText 0)).reverse

theorem map_renumber_sourceLines (source : String) :
    (sourceLines source).reverse.map (Line.renumber fun _ => 0) = unnumbered source := by
  have hlines : (sourceLines source).map (Line.renumber fun _ => 0) =
      (lines source.toList).map (Line.ofText 0) := by
    apply List.ext_getElem
    · simp [sourceLines]
    · intro i _ _
      simp [sourceLines, Line.renumber, Line.ofText]
  rw [List.map_reverse, hlines, unnumbered]

theorem filter_unnumbered (p : Line → Bool) (source : String) :
    (unnumbered source).filter p =
      (((lines source.toList).filter fun raw => p (.ofText 0 raw)).map
        (Line.ofText 0)).reverse := by
  rw [unnumbered, List.filter_reverse, List.filter_map]
  rfl

/-- Whether a source has a document, which one, and how many diagnostics it has otherwise, is
decided by its lines without their numbers. -/
theorem parse_of_unnumbered (defaultTitle source : String) :
    ((History.scanner (unnumbered source)).close.errors.length = 0 ∧
      parse defaultTitle source =
        .success ((History.scanner (unnumbered source)).document defaultTitle)) ∨
    ((History.scanner (unnumbered source)).close.errors.length ≠ 0 ∧
      ∃ es, parse defaultTitle source = .invalid es ∧
        es.length = (History.scanner (unnumbered source)).close.errors.length) := by
  have hlines := History.map_line_close_renumber (fun _ => 0) (sourceLines source).reverse
  have hcount := congrArg List.length hlines
  have hdocument := History.document_renumber (fun _ => 0) defaultTitle (sourceLines source).reverse
  rw [map_renumber_sourceLines] at hcount hdocument
  simp only [List.length_map] at hcount
  rw [hcount, hdocument, History.parse_eq_outcome]
  by_cases he : (History.scanner (sourceLines source).reverse).close.errors = []
  · exact .inl ⟨by rw [he, List.length_nil], Scanner.outcome_eq_success_iff.mpr ⟨he, rfl⟩⟩
  · refine .inr ⟨mt List.length_eq_zero_iff.mp he, _,
      Scanner.outcome_eq_invalid_iff.mpr ⟨he, rfl⟩, ?_⟩
    exact List.length_mergeSort _

/-- Where links stand in a text does not matter: it gives the same document from any places, or as
many diagnostics. -/
theorem parse_of_linksMoved (defaultTitle : String) {source source' : String}
    (h : LinksMoved source source') :
    (∃ d, parse defaultTitle source = .success d ∧ parse defaultTitle source' = .success d) ∨
      ∃ es es', parse defaultTitle source = .invalid es ∧
        parse defaultTitle source' = .invalid es' ∧ es.length = es'.length := by
  have hlinks : (unnumbered source).filter Line.isLink =
      (unnumbered source').filter Line.isLink := by
    rw [filter_unnumbered, filter_unnumbered]
    exact congrArg (fun raws => (raws.map (Line.ofText 0)).reverse) h.links
  have hothers : (unnumbered source).filter (!·.isLink) =
      (unnumbered source').filter (!·.isLink) := by
    rw [filter_unnumbered, filter_unnumbered]
    exact congrArg (fun raws => (raws.map (Line.ofText 0)).reverse) h.others
  obtain ⟨hcount, hdocument⟩ := History.close_of_filters hlinks hothers
  rcases parse_of_unnumbered defaultTitle source with ⟨he, hd⟩ | ⟨he, es, hes, hlen⟩
  · rcases parse_of_unnumbered defaultTitle source' with ⟨-, hd'⟩ | ⟨he', -⟩
    · rw [← hdocument] at hd'
      exact .inl ⟨_, hd, hd'⟩
    · exact absurd (hcount.symm.trans he) he'
  · rcases parse_of_unnumbered defaultTitle source' with ⟨he', -⟩ | ⟨-, es', hes', hlen'⟩
    · exact absurd (hcount.trans he') he
    · exact .inr ⟨es, es', hes, hes', hlen.trans (hcount.trans hlen'.symm)⟩

/-- A link in front of what it joins, and inside a block. -/
theorem parse_of_linksMoved_block :
    LinksMoved "a -> c\ncontainer c: \"C\" \x7b\nnode a: \"A\"\n\x7d"
        "container c: \"C\" \x7b\na -> c\nnode a: \"A\"\n\x7d" ∧
      ∃ d, parse "Plan" "a -> c\ncontainer c: \"C\" \x7b\nnode a: \"A\"\n\x7d" = .success d ∧
        parse "Plan" "container c: \"C\" \x7b\na -> c\nnode a: \"A\"\n\x7d" = .success d := by
  have hmoved : LinksMoved "a -> c\ncontainer c: \"C\" \x7b\nnode a: \"A\"\n\x7d"
      "container c: \"C\" \x7b\na -> c\nnode a: \"A\"\n\x7d" :=
    ⟨by decide +kernel, by decide +kernel⟩
  have hread : (parse "Plan"
      "a -> c\ncontainer c: \"C\" \x7b\nnode a: \"A\"\n\x7d").document?.isSome = true := by
    decide +kernel
  refine ⟨hmoved, ?_⟩
  rcases parse_of_linksMoved "Plan" hmoved with hboth | ⟨es, -, hes, -⟩
  · exact hboth
  · rw [hes] at hread
    cases hread

end ArchDiagram.Source
