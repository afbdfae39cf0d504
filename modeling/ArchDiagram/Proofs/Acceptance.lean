import ArchDiagram.Proofs.Outcome
import ArchDiagram.Proofs.WellFormed

/-!
Acceptance of sources. A source is read exactly when its lines are well formed, and its document
holds the declarations and links of these lines in their order.
-/

namespace ArchDiagram.Source

open Text

namespace History

theorem linkDiagnostics_eq_nil_iff (known : List String) (ls : List LinkStatement) :
    linkDiagnostics known ls = [] ↔ ∀ k ∈ ls, k.source ∈ known ∧ k.target ∈ known := by
  simp [linkDiagnostics, endFaults]

theorem resolvedLinks_of_ends {known : List String} {ls : List LinkStatement}
    (h : ∀ k ∈ ls, k.source ∈ known ∧ k.target ∈ known) :
    resolvedLinks known ls = ls.mapIdx LinkStatement.numbered := by
  have hall : ls.filter (fun k => (endFaults known k).isEmpty) = ls := by
    rw [List.filter_eq_self]
    intro k hk
    simpa [endFaults] using h k hk
  rw [resolvedLinks, hall]
  rfl

/-- The scan of a history ends without diagnostics when its lines have no faults, all blocks are
closed, and references lead where they should. -/
theorem close_errors_eq_nil_iff_parts (h : List Line) :
    (scanner h).close.errors = [] ↔
      diagnostics h = [] ∧ openBlocks h = [] ∧
        (∀ k ∈ links h, k.source ∈ (kept h).map (·.id) ∧ k.target ∈ (kept h).map (·.id)) ∧
          parentDiagnostics (kept h) = [] := by
  rw [← linkDiagnostics_eq_nil_iff]
  change diagnostics h ++ (scanner h).unclosed ++ (scanner h).unresolved = [] ↔ _
  simp [Scanner.unclosed, Scanner.unresolved, scanner, Scanner.declaredIds]

theorem document_nodes (h : List Line) (t : String) :
    ((scanner h).document t).nodes = ((kept h).filter (!·.isContainer)).map Declaration.toNode :=
  rfl

theorem document_containers (h : List Line) (t : String) :
    ((scanner h).document t).containers = containersOf (kept h) :=
  rfl

theorem document_title (h : List Line) (t : String) :
    ((scanner h).document t).title = ((title? h).map (·.text)).getD t :=
  rfl

theorem document_links {h : List Line} (hh : (scanner h).close.errors = []) (t : String) :
    ((scanner h).document t).links = (links h).mapIdx LinkStatement.numbered := by
  obtain ⟨-, -, hends, -⟩ := (close_errors_eq_nil_iff_parts h).mp hh
  exact resolvedLinks_of_ends hends

/-- The scan of lines ends without diagnostics exactly when the lines are well formed. -/
theorem close_errors_eq_nil_iff {ls : List Line} (hl : ∀ l ∈ ls, l.Classified) :
    (scanner ls.reverse).close.errors = [] ↔ WellFormed ls := by
  have hl' : ∀ l ∈ ls.reverse, l.Classified := fun l h => hl l (List.mem_reverse.mp h)
  have hscan : diagnostics ls.reverse = [] ↔
      (∀ l ∈ ls, l.WellFormed) ∧ ((declared [] ls).map (·.id)).Nodup ∧
        Along (fun before l => l.kind = .title → title? before = none) ls.reverse ∧
          Along (fun before l => l.closes = true → openBlocks before ≠ []) ls.reverse := by
    rw [diagnostics_eq_nil_iff, along_congr fun l h before => fault?_eq_none_iff (hl' l h) before,
      along_and, along_and, along_and, along_distinct_iff, List.reverse_reverse,
      along_iff_forall]
    simp
  have hbraces := balanced_iff ls.reverse
  rw [List.reverse_reverse] at hbraces
  have hlines : links ls.reverse = ls.filterMap Line.link? := by rw [links, List.reverse_reverse]
  have htitle (hw : ∀ l ∈ ls, l.WellFormed) :
      Along (fun before l => l.kind = .title → title? before = none) ls.reverse ↔
        ls.countP (fun l => l.kind = .title) ≤ 1 := by
    rw [along_title_iff fun l h => hw l (List.mem_reverse.mp h), List.countP_reverse]
  rw [close_errors_eq_nil_iff_parts, hlines]
  constructor
  · rintro ⟨hdiag, hopen, hlinks, hparents⟩
    -- without faults every declaration is kept, so references are checked against all of them
    have hkept := kept_eq_declared (clean_of_diagnostics hl' hdiag)
    rw [List.reverse_reverse] at hkept
    obtain ⟨hwell, hdistinct, htitles, hmatched⟩ := hscan.mp hdiag
    rw [hkept] at hlinks hparents
    obtain ⟨hpar, hacyclic⟩ := (parentDiagnostics_eq_nil_iff hdistinct).mp hparents
    exact ⟨hwell, (htitle hwell).mp htitles, hdistinct, hbraces.mpr ⟨hmatched, hopen⟩, hlinks,
      hpar, hacyclic⟩
  · rintro ⟨hwell, htitles, hdistinct, hbalanced, hlinks, hpar, hacyclic⟩
    obtain ⟨hmatched, hopen⟩ := hbraces.mp hbalanced
    have hdiag := hscan.mpr ⟨hwell, hdistinct, (htitle hwell).mpr htitles, hmatched⟩
    have hkept := kept_eq_declared (clean_of_diagnostics hl' hdiag)
    rw [List.reverse_reverse] at hkept
    rw [hkept]
    exact ⟨hdiag, hopen, hlinks, (parentDiagnostics_eq_nil_iff hdistinct).mpr ⟨hpar, hacyclic⟩⟩

/-- The only title line of well-formed lines gives the title that the scanner has. -/
theorem form_of_title? {ls : List Line} (hw : WellFormed ls) {l : Line} (hl : l ∈ ls)
    (hk : l.kind = .title) :
    ∃ t, title? ls.reverse = some t ∧ TitleForm (l.text.drop 5) t.text.toList := by
  -- the scanner takes the first title that can be read, which is on the only title line
  have hone (k : Line) (hkm : k ∈ ls) (hkt : k.kind = .title) : k = l := by
    have hlen := hw.one_title
    rw [List.countP_eq_length_filter] at hlen
    have hkf : k ∈ ls.filter fun l => l.kind = .title :=
      List.mem_filter.mpr ⟨hkm, decide_eq_true hkt⟩
    have hlf : l ∈ ls.filter fun l => l.kind = .title :=
      List.mem_filter.mpr ⟨hl, decide_eq_true hk⟩
    cases hf : ls.filter fun l => l.kind = .title with
    | nil => simp [hf] at hkf
    | cons a as =>
      rw [hf, List.length_cons] at hlen
      have has : as = [] := List.length_eq_zero_iff.mp (by omega)
      rw [hf, has, List.mem_singleton] at hkf hlf
      rw [hkf, hlf]
  cases ht : title? ls.reverse with
  | none =>
    have hnone := (title?_eq_none_iff fun k hkm => hw.statements k (List.mem_reverse.mp hkm)).mp ht
    exact absurd hk (hnone l (List.mem_reverse.mpr hl))
  | some t =>
    refine ⟨t, rfl, ?_⟩
    rw [title?, List.reverse_reverse] at ht
    obtain ⟨k, hkm, hkt⟩ := List.exists_of_findSome?_eq_some ht
    unfold Line.title? at hkt
    split at hkt
    · rename_i hkk
      rw [hone k hkm hkk] at hkt
      cases hr : readTitle l with
      | error f =>
        rw [hr] at hkt
        cases hkt
      | ok text =>
        rw [hr] at hkt
        cases hkt
        exact form_of_readTitle hr
    · cases hkt

/-- The document of a scan holds what its lines do. -/
theorem holds_document {ls : List Line} (hl : ∀ l ∈ ls, l.Classified) (hw : WellFormed ls)
    (defaultTitle : String) :
    Holds defaultTitle ls ((scanner ls.reverse).close.document defaultTitle) := by
  have hclose := (close_errors_eq_nil_iff hl).mpr hw
  have hkept : kept ls.reverse = declared [] ls := by
    have hdiag : diagnostics ls.reverse = [] := by
      have := List.append_eq_nil_iff.mp (List.append_eq_nil_iff.mp hclose).1
      exact this.1
    have := kept_eq_declared (clean_of_diagnostics
      (fun l h => hl l (List.mem_reverse.mp h)) hdiag)
    rwa [List.reverse_reverse] at this
  have hlinks : links ls.reverse = ls.filterMap Line.link? := by rw [links, List.reverse_reverse]
  change Holds defaultTitle ls ((scanner ls.reverse).document defaultTitle)
  refine ⟨?_, ?_, ?_, ?_, ?_⟩
  · intro l hlm hk
    obtain ⟨t, ht, hform⟩ := form_of_title? hw hlm hk
    rw [document_title, ht]
    exact hform
  · intro hn
    have hnone := (title?_eq_none_iff fun k hkm => hw.statements k (List.mem_reverse.mp hkm)).mpr
      fun k hkm => hn k (List.mem_reverse.mp hkm)
    rw [document_title, hnone]
    rfl
  · rw [document_nodes, hkept]
  · rw [document_containers, hkept]
  · rw [document_links hclose, hlinks]

end History

theorem Holds.unique {defaultTitle : String} {ls : List Line} {d d' : Document Binary64}
    (h : Holds defaultTitle ls d) (h' : Holds defaultTitle ls d') : d = d' := by
  have htitle : d.title = d'.title := by
    by_cases ht : ∃ l ∈ ls, l.kind = .title
    · obtain ⟨l, hl, hk⟩ := ht
      have hr := readTitle_of_form (h.written_title l hl hk)
      have hr' := readTitle_of_form (h'.written_title l hl hk)
      rw [hr] at hr'
      simpa using hr'
    · push Not at ht
      rw [h.default_title ht, h'.default_title ht]
  cases d
  cases d'
  simp only at htitle
  rw [htitle, Document.mk.injEq]
  exact ⟨rfl, h.nodes.trans h'.nodes.symm, h.containers.trans h'.containers.symm,
    h.links.trans h'.links.symm⟩

/-- A source gives a document when its scan ends without diagnostics. -/
theorem parse_eq_success_iff {defaultTitle source : String} {d : Document Binary64} :
    parse defaultTitle source = .success d ↔
      WellFormed (sourceLines source) ∧ Holds defaultTitle (sourceLines source) d := by
  have hl : ∀ l ∈ sourceLines source, l.Classified := fun l h =>
    History.classified_of_mem_sourceLines h
  rw [History.parse_eq_outcome, ← History.close_errors_eq_nil_iff hl,
    Scanner.outcome_eq_success_iff]
  refine and_congr_right fun hnil => ?_
  have hdoc := History.holds_document hl ((History.close_errors_eq_nil_iff hl).mp hnil) defaultTitle
  constructor
  · rintro rfl
    exact hdoc
  · exact fun hholds => hdoc.unique hholds

end ArchDiagram.Source
