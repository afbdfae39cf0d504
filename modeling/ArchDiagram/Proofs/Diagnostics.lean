import ArchDiagram.Proofs.History
import ArchDiagram.Proofs.Outcome

/-!
What a refused source is told. Every diagnostic stands at a line that holds a statement, and a line
that is wrong on its own is always reported there. No line is reported more than twice: a line has
at most one fault when it is read, and what is checked at the end adds to it only where the first
reading left room.
-/

namespace ArchDiagram.Source

open Text

/-- The fault that a line has on its own, whatever stands on the others. -/
def Line.ownFault? (l : Line) : Option Fault :=
  match l.kind with
  | .declaration =>
    match Declaration.read l with
    | .error (.rejected fault) => some fault
    | _ => none
  | .link =>
    match LinkStatement.read l with
    | .error fault => some fault
    | .ok _ => none
  | .title =>
    match readTitle l with
    | .error fault => some fault
    | .ok _ => none
  | .unknown => some (.unrecognized (String.ofList l.text))
  | .blockEnd | .comment | .blank => none

/-- Whether a line holds a statement: it is neither blank nor a comment. -/
def Line.isStatement (l : Line) : Bool :=
  l.kind != .blank && l.kind != .comment

/-- What is found against the lines of a scan, in the order of detection: first on the lines
themselves, then open blocks, then links, then parents. -/
def Scanner.found (s : Scanner) : List Diagnostic :=
  s.errors ++ s.unclosed ++ linkDiagnostics s.declaredIds s.links ++
    parentDiagnostics s.declarations

/-- What the diagnostics of a refused source are. -/
structure Diagnosed (source : String) (es : List Diagnostic) : Prop where
  nonempty : es ≠ []
  order : ByLine (scanned source).found es
  first : ∃ e ∈ es, (Outcome.invalid es).firstErrorLine? = some e.line ∧ ∀ f ∈ es, e.line ≤ f.line
  located : ∀ e ∈ es, ∃ l ∈ sourceLines source, l.number = e.line ∧ l.isStatement = true
  complete : ∀ l ∈ sourceLines source, ∀ f ∈ l.ownFault?, ⟨l.number, f⟩ ∈ es
  bounded : ∀ n, es.countP (fun e => e.line = n) ≤ 2

theorem LinkStatement.line_of_read {l : Line} {k : LinkStatement}
    (h : LinkStatement.read l = .ok k) : k.line = l.number := by
  unfold LinkStatement.read at h
  split at h
  · obtain ⟨source, -, h⟩ := bind_eq_ok_iff.mp h
    dsimp only at h
    split at h
    · obtain ⟨target, -, h⟩ := bind_eq_ok_iff.mp h
      cases h
      rfl
    · obtain ⟨target, -, h⟩ := bind_eq_ok_iff.mp h
      obtain ⟨label, -, h⟩ := bind_eq_ok_iff.mp h
      cases h
      rfl
  · cases h

theorem Scanner.errors_close (s : Scanner) : s.close.errors = s.found := by
  simp [Scanner.close, Scanner.found, Scanner.unresolved]

/-- Faults of parents, found against given declarations. -/
def parentReports (known ds : List Declaration) : List Diagnostic :=
  ds.filterMap fun d => (parentFault? known d).map (⟨d.line, ·⟩)

namespace History

/-- The report for the block that a line opens, if it stays open. -/
def openReport (before : List Line) (l : Line) : List Diagnostic :=
  if l.opens then [⟨l.number, .unclosedBlock ((first? before l).map (·.id))⟩] else []

/-- All that a line can be reported for: its fault when it is read, the block that it opens, the
ends of its link and the parent of its declaration. -/
def reports (ids : List String) (ds : List Declaration) (before : List Line) (l : Line) :
    List Diagnostic :=
  ((fault? before l).map (⟨l.number, ·⟩)).toList ++ openReport before l ++
    linkDiagnostics ids l.link?.toList ++ parentReports ds (placed? before l).toList

theorem line_of_placed? {before : List Line} {l : Line} {d : Declaration}
    (h : placed? before l = some d) : d.line = l.number ∧ l.kind = .declaration := by
  obtain ⟨e, he, rfl⟩ := Option.map_eq_some_iff.mp h
  obtain ⟨hk, hr⟩ := declaration?_eq_some_iff.mp (first?_eq_some_iff.mp he).1
  have hline := Declaration.line_of_read hr
  exact ⟨hline, hk⟩

/-- A line is reported at its own number, and only when it holds a statement. -/
theorem of_mem_reports {ids : List String} {ds : List Declaration} {before : List Line} {l : Line}
    {e : Diagnostic} (h : e ∈ reports ids ds before l) :
    e.line = l.number ∧ l.isStatement = true := by
  unfold reports at h
  rcases List.mem_append.mp h with h | h
  · rcases List.mem_append.mp h with h | h
    · rcases List.mem_append.mp h with h | h
      · obtain ⟨f, hf, rfl⟩ := Option.map_eq_some_iff.mp (Option.mem_toList.mp h)
        refine ⟨rfl, ?_⟩
        -- blank lines and comments have no fault
        cases hk : l.kind <;> simp [fault?, Line.isStatement, hk] at hf ⊢
      · unfold openReport at h
        split at h
        · rename_i ho
          rw [List.mem_singleton] at h
          subst h
          simp only [Line.opens, Bool.and_eq_true, decide_eq_true_eq] at ho
          simp [Line.isStatement, ho.1]
        · cases h
    · obtain ⟨k, hk, h⟩ := List.mem_flatMap.mp h
      obtain ⟨f, -, rfl⟩ := List.mem_map.mp h
      obtain ⟨hkind, hr⟩ := link?_eq_some_iff.mp (Option.mem_toList.mp hk)
      exact ⟨LinkStatement.line_of_read hr, by simp [Line.isStatement, hkind]⟩
  · obtain ⟨d, hd, h⟩ := List.mem_filterMap.mp h
    obtain ⟨f, -, rfl⟩ := Option.map_eq_some_iff.mp h
    obtain ⟨hline, hkind⟩ := line_of_placed? (Option.mem_toList.mp hd)
    exact ⟨hline, by simp [Line.isStatement, hkind]⟩

theorem length_linkDiagnostics_le (ids : List String) (k : Option LinkStatement) :
    (linkDiagnostics ids k.toList).length ≤ 2 := by
  cases k with
  | none => simp [linkDiagnostics]
  | some k =>
    simp only [linkDiagnostics, Option.toList_some, List.flatMap_cons, List.flatMap_nil,
      List.append_nil, List.length_map, endFaults, List.length_append]
    split <;> split <;> simp

theorem length_parentReports_le (ds : List Declaration) (d : Option Declaration) :
    (parentReports ds d.toList).length ≤ d.toList.length :=
  List.length_filterMap_le _ _

/-- A declaration with a fault is not kept: it cannot be read, or its identifier is taken. -/
theorem placed?_of_fault? {before : List Line} {l : Line} {f : Fault}
    (h : fault? before l = some f) : placed? before l = none := by
  cases hp : placed? before l with
  | none => rfl
  | some d =>
    obtain ⟨e, he, rfl⟩ := Option.map_eq_some_iff.mp hp
    obtain ⟨hd, hfirst⟩ := first?_eq_some_iff.mp he
    obtain ⟨hk, hr⟩ := declaration?_eq_some_iff.mp hd
    have hnew := (find?_kept_eq_none_iff before e.id).mpr hfirst
    simp [fault?, hk, hr, hnew] at h

/-- No line can be reported more than twice. -/
theorem length_reports_le (ids : List String) (ds : List Declaration) (before : List Line)
    (l : Line) : (reports ids ds before l).length ≤ 2 := by
  have hlinks := length_linkDiagnostics_le ids l.link?
  have hparents := length_parentReports_le ds (placed? before l)
  simp only [reports, List.length_append]
  by_cases hd : l.kind = .declaration
  · -- one report for the block, and one for the fault or for the parent
    have hnone : l.link? = none := by simp [Line.link?, hd]
    have hopen : (openReport before l).length ≤ 1 := by
      unfold openReport
      split <;> simp
    have hone : ((fault? before l).map (⟨l.number, ·⟩ : Fault → Diagnostic)).toList.length +
        (placed? before l).toList.length ≤ 1 := by
      cases hf : fault? before l with
      | none => cases placed? before l <;> simp
      | some f => simp [placed?_of_fault? hf]
    rw [hnone]
    simp only [linkDiagnostics, Option.toList_none, List.flatMap_nil, List.length_nil]
    omega
  · -- a link is rejected, or its two ends are checked; other lines have a fault at most
    have hopen : openReport before l = [] := by simp [openReport, Line.opens, hd]
    have hplaced : placed? before l = none := by
      simp [placed?, first?, Line.declaration?, hd]
    have hfault : ((fault? before l).map (⟨l.number, ·⟩ : Fault → Diagnostic)).toList.length +
        (linkDiagnostics ids l.link?.toList).length ≤ 2 := by
      by_cases hk : l.kind = .link
      · cases hr : LinkStatement.read l with
        | ok k => simpa [fault?, hk, hr] using hlinks
        | error f => simp [fault?, hk, hr, Line.link?, linkDiagnostics, Except.toOption]
      · cases fault? before l <;> simp [Line.link?, hk, linkDiagnostics]
    rw [hplaced] at hparents ⊢
    rw [hopen]
    simp only [Option.toList_none, List.length_nil] at hparents ⊢
    omega

theorem countP_reports_le (ids : List String) (ds : List Declaration) (before : List Line)
    (l : Line) (n : Int) :
    (reports ids ds before l).countP (fun e => e.line = n) ≤
      if l.number = n ∧ l.isStatement = true then 2 else 0 := by
  split
  · exact Nat.le_trans List.countP_le_length (length_reports_le ids ds before l)
  · rename_i hn
    rw [Nat.le_zero, List.countP_eq_zero]
    intro e he hline
    obtain ⟨hnumber, hstatement⟩ := of_mem_reports he
    rw [decide_eq_true_eq, hnumber] at hline
    exact hn ⟨hline, hstatement⟩

/-- A line opens at most one block, at its own number. -/
theorem countP_openBlocks_cons_le (l : Line) (before : List Line) (n : Int) :
    (openBlocks (l :: before)).countP (fun b => b.line = n) ≤
      (openBlocks before).countP (fun b => b.line = n) +
        (openReport before l).countP fun e => e.line = n := by
  rw [openBlocks, openReport]
  split
  · apply Nat.le_of_eq
    rw [List.countP_cons, List.countP_singleton]
  · split
    · have htail := (List.tail_sublist (openBlocks before)).countP_le (p := fun b => b.line = n)
      exact Nat.le_trans htail (Nat.le_add_right _ _)
    · exact Nat.le_add_right _ _

/-- What is found at one number is at most twice the statements that have this number. Each line
adds what it is reported for; references are checked against any identifiers and declarations. -/
theorem countP_found_le (ids : List String) (ds : List Declaration) (n : Int) (h : List Line) :
    (diagnostics h).countP (fun e => e.line = n) +
        (openBlocks h).countP (fun b => b.line = n) +
        (linkDiagnostics ids (links h)).countP (fun e => e.line = n) +
        (parentReports ds (kept h)).countP (fun e => e.line = n) ≤
      2 * h.countP fun l => l.number = n ∧ l.isStatement = true := by
  induction h with
  | nil => simp [diagnostics, openBlocks, links, linkDiagnostics, kept, parentReports]
  | cons l before ih =>
    have hblocks := countP_openBlocks_cons_le l before n
    have hreports := countP_reports_le ids ds before l n
    have hlinks : linkDiagnostics ids (links (l :: before)) =
        linkDiagnostics ids (links before) ++ linkDiagnostics ids l.link?.toList := by
      rw [links_cons, linkDiagnostics, List.flatMap_append]
      rfl
    have hparents : parentReports ds (kept (l :: before)) =
        parentReports ds (kept before) ++ parentReports ds (placed? before l).toList := by
      rw [kept, parentReports, List.filterMap_append]
      rfl
    rw [diagnostics, hlinks, hparents, List.countP_cons, List.countP_append, List.countP_append,
      List.countP_append]
    simp only [reports, List.countP_append, decide_eq_true_eq] at hreports ⊢
    by_cases hn : l.number = n ∧ l.isStatement = true
    · rw [if_pos hn] at hreports ⊢
      omega
    · rw [if_neg hn] at hreports ⊢
      omega

theorem found_scanner (h : List Line) :
    (scanner h).found = diagnostics h ++ (scanner h).unclosed ++
      linkDiagnostics ((kept h).map (·.id)) (links h) ++ parentReports (kept h) (kept h) :=
  rfl

/-- The diagnostics of a whole scan, at one number. -/
theorem countP_found_scanner_le (h : List Line) (n : Int) :
    (scanner h).found.countP (fun e => e.line = n) ≤
      2 * h.countP fun l => l.number = n ∧ l.isStatement = true := by
  have hunclosed : (scanner h).unclosed.countP (fun e => e.line = n) =
      (openBlocks h).countP fun b => b.line = n := by
    rw [Scanner.unclosed, List.countP_map, List.countP_reverse]
    rfl
  have hle := countP_found_le ((kept h).map (·.id)) (kept h) n h
  rw [found_scanner, List.countP_append, List.countP_append, List.countP_append, hunclosed]
  exact hle

/-- The fault that a line has on its own is found whatever stands before it. -/
theorem fault?_of_ownFault? {l : Line} {f : Fault} (h : l.ownFault? = some f)
    (before : List Line) : fault? before l = some f := by
  unfold Line.ownFault? at h
  split at h
  · split at h
    · simp_all [fault?]
    · cases h
  · split at h
    · simp_all [fault?]
    · cases h
  · split at h
    · simp_all [fault?]
    · cases h
  · simp_all [fault?]
  · cases h
  · cases h
  · cases h

theorem mem_diagnostics_of_ownFault? {h : List Line} {l : Line} (hl : l ∈ h) {f : Fault}
    (hf : l.ownFault? = some f) : ⟨l.number, f⟩ ∈ diagnostics h := by
  induction h with
  | nil => cases hl
  | cons k before ih =>
    rw [diagnostics]
    rcases List.mem_cons.mp hl with rfl | hl
    · simp [fault?_of_ownFault? hf before]
    · exact List.mem_append_left _ (ih hl)

end History

/-- Lines are numbered upwards. -/
theorem pairwise_number_sourceLines (source : String) :
    (sourceLines source).Pairwise fun l k => l.number < k.number := by
  rw [List.pairwise_iff_getElem]
  intro i j hi hj hij
  simp only [sourceLines, List.getElem_mapIdx, Line.ofText]
  omega

/-- A number belongs to one line at most. -/
theorem countP_number_le_one {ls : List Line} (h : ls.Pairwise fun l k => l.number < k.number)
    (n : Int) : ls.countP (fun l => l.number = n ∧ l.isStatement = true) ≤ 1 := by
  induction ls with
  | nil => simp
  | cons l ls ih =>
    obtain ⟨hl, hls⟩ := List.pairwise_cons.mp h
    rw [List.countP_cons]
    split
    · rename_i hn
      have hzero : ls.countP (fun k => k.number = n ∧ k.isStatement = true) = 0 := by
        rw [List.countP_eq_zero]
        intro k hk hkn
        have hlt := hl k hk
        simp only [decide_eq_true_eq] at hn hkn
        omega
      omega
    · exact ih hls

/-- What is found in a source, at one number. -/
theorem countP_found_source_le (source : String) (n : Int) :
    (scanned source).found.countP (fun e => e.line = n) ≤
      2 * (sourceLines source).countP fun l => l.number = n ∧ l.isStatement = true := by
  have hle := History.countP_found_scanner_le (sourceLines source).reverse n
  rw [List.countP_reverse] at hle
  rwa [History.scanned_eq_scanner]

/-- Whatever is found stands at a statement. -/
theorem exists_statement_of_mem_found {source : String} {e : Diagnostic}
    (h : e ∈ (scanned source).found) :
    ∃ l ∈ sourceLines source, l.number = e.line ∧ l.isStatement = true := by
  have hpos : 0 < (scanned source).found.countP fun f => f.line = e.line :=
    List.countP_pos_iff.mpr ⟨e, h, by simp⟩
  have hle := countP_found_source_le source e.line
  have hlines : 0 < (sourceLines source).countP
      fun l => l.number = e.line ∧ l.isStatement = true := by omega
  obtain ⟨l, hl, hn⟩ := List.countP_pos_iff.mp hlines
  exact ⟨l, hl, by simpa using hn⟩

/-- The fault that a line has on its own is found. -/
theorem mem_found_of_ownFault? {source : String} {l : Line} (hl : l ∈ sourceLines source)
    {f : Fault} (hf : l.ownFault? = some f) : ⟨l.number, f⟩ ∈ (scanned source).found := by
  have hmem := History.mem_diagnostics_of_ownFault? (List.mem_reverse.mpr hl) hf
  rw [History.scanned_eq_scanner, History.found_scanner]
  simp [hmem]

/-- The first of the diagnostics in order has the least line. -/
theorem exists_first_of_sorted {es : List Diagnostic} (hne : es ≠ [])
    (hs : es.Pairwise fun a b => a.line ≤ b.line) :
    ∃ e ∈ es, (Outcome.invalid es).firstErrorLine? = some e.line ∧
      ∀ f ∈ es, e.line ≤ f.line := by
  cases es with
  | nil => exact absurd rfl hne
  | cons e es =>
    obtain ⟨hle, -⟩ := List.pairwise_cons.mp hs
    refine ⟨e, List.mem_cons_self, rfl, ?_⟩
    intro f hf
    rcases List.mem_cons.mp hf with rfl | hf
    · exact Int.le_refl _
    · exact hle f hf

/-- Every source is explained: no line of a readable one is wrong on its own, and a refused one is
told what is wrong and where, in the order of its lines. -/
theorem parse_explains_lines (defaultTitle source : String) :
    match parse defaultTitle source with
    | .success _ => ∀ l ∈ sourceLines source, l.ownFault? = none
    | .invalid es => Diagnosed source es := by
  have hclose : (History.scanner (sourceLines source).reverse).close.errors =
      (scanned source).found := by
    rw [Scanner.errors_close, History.scanned_eq_scanner]
  cases hparse : parse defaultTitle source with
  | success d =>
    rw [History.parse_eq_outcome, Scanner.outcome_eq_success_iff, hclose] at hparse
    intro l hl
    rw [Option.eq_none_iff_forall_ne_some]
    intro f hf
    have hmem := mem_found_of_ownFault? hl hf
    rw [hparse.1] at hmem
    cases hmem
  | invalid es =>
    rw [History.parse_eq_outcome, Scanner.outcome_eq_invalid_iff, Scanner.sortedErrors,
      hclose] at hparse
    obtain ⟨hne, rfl⟩ := hparse
    have horder := byLine_mergeSort (scanned source).found
    generalize (scanned source).found.mergeSort (fun a b => a.line ≤ b.line) = es at horder
    have hnonempty : es ≠ [] := by
      rintro rfl
      exact hne horder.perm.nil_eq.symm
    exact {
      nonempty := hnonempty
      order := horder
      first := exists_first_of_sorted hnonempty horder.sorted
      located := fun e he => exists_statement_of_mem_found (horder.perm.mem_iff.mp he)
      complete := fun l hl f hf => horder.perm.mem_iff.mpr (mem_found_of_ownFault? hl hf)
      bounded := fun n => by
        have hle := countP_found_source_le source n
        have hone := countP_number_le_one (pairwise_number_sourceLines source) n
        rw [horder.perm.countP_eq]
        omega }

/-- Two diagnostics for one line: its block stays open, and its parent is not known. -/
example : (scanned "node n: \"N\"\ncontainer a: \"A\" parent=b \x7b").found.map (·.line) =
    [2, 2] := by
  decide +kernel

end ArchDiagram.Source
