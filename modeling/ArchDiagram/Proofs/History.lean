import ArchDiagram.Proofs.Forms
import ArchDiagram.Source.Parse

/-!
The scanner as a function of the lines it was fed. A history lists these lines with the latest
first. Every part of the scanner has a reading on histories that does not mention the scanner: open
blocks are matched braces, kept declarations are the first of their identifiers, and each line adds
at most one fault. Feeding a line moves from the reading of a history to that of the longer one.
-/

namespace ArchDiagram.Source

open Text

/-- The declaration on a line, if there is one that can be read. -/
def Line.declaration? (l : Line) : Option Declaration :=
  if l.kind = .declaration then (Declaration.read l).toOption else none

/-- The link on a line, if there is one that can be read. -/
def Line.link? (l : Line) : Option LinkStatement :=
  if l.kind = .link then (LinkStatement.read l).toOption else none

/-- The title on a line, if there is one that can be read. -/
def Line.title? (l : Line) : Option Title :=
  if l.kind = .title then (readTitle l).toOption.map (⟨·, l.number⟩) else none

/-- Whether a line opens a block, by its text alone. -/
def Line.opens (l : Line) : Bool :=
  l.kind = .declaration && opensBlock l.text

def Line.closes (l : Line) : Bool :=
  l.kind = .blockEnd

def Line.declares (id : String) (l : Line) : Bool :=
  l.declaration?.any (·.id == id)

namespace History

/-- The declaration on a line, if it is accepted as the first of its identifier. -/
def first? (before : List Line) (l : Line) : Option Declaration :=
  l.declaration?.filter fun d => !before.any (Line.declares d.id)

/-- Plain matching of braces, the innermost open block first. What a line declares decides only
the identifier in its slot. -/
def openBlocks : List Line → List Block
  | [] => []
  | l :: before =>
    if l.opens then ⟨(first? before l).map (·.id), l.number⟩ :: openBlocks before
    else if l.closes then (openBlocks before).tail
    else openBlocks before

/-- The identifier in the nearest open slot that has one. -/
def enclosing? (before : List Line) : Option String :=
  (openBlocks before).findSome? (·.container)

/-- A declaration that is accepted first, with its effective parent. -/
def placed? (before : List Line) (l : Line) : Option Declaration :=
  (first? before l).map fun d => { d with parent := d.parent <|> enclosing? before }

def kept : List Line → List Declaration
  | [] => []
  | l :: before => kept before ++ (placed? before l).toList

def links (h : List Line) : List LinkStatement :=
  h.reverse.filterMap Line.link?

/-- The first title that can be read. -/
def title? (h : List Line) : Option Title :=
  h.reverse.findSome? Line.title?

/-- What a line adds to the faults found before it. -/
def fault? (before : List Line) (l : Line) : Option Fault :=
  match l.kind with
  | .comment | .blank => none
  | .declaration =>
    match Declaration.read l with
    | .ok d =>
      ((kept before).find? (·.id == d.id)).map fun first => .duplicateIdentifier d.id first.line
    | .error (.rejected fault) => some fault
    | .error (.failed _) => none
  | .link =>
    match LinkStatement.read l with
    | .ok _ => none
    | .error fault => some fault
  | .title =>
    match readTitle l with
    | .ok _ => (title? before).map fun first => .repeatedTitle first.line
    | .error fault => some fault
  | .blockEnd => if openBlocks before = [] then some .unmatchedBrace else none
  | .unknown => some (.unrecognized (String.ofList l.text))

/-- The faults of all lines, in the order in which they are found. -/
def diagnostics : List Line → List Diagnostic
  | [] => []
  | l :: before => diagnostics before ++ ((fault? before l).map (⟨l.number, ·⟩)).toList

/-- The scanner that has read a history. -/
def scanner (h : List Line) : Scanner :=
  { declarations := kept h
    links := links h
    errors := diagnostics h
    title := title? h
    lineCount := (h.head?.map (·.number)).getD 0
    blocks := openBlocks h }

theorem declaration?_eq_some_iff {l : Line} {d : Declaration} :
    l.declaration? = some d ↔ l.kind = .declaration ∧ Declaration.read l = .ok d := by
  unfold Line.declaration?
  split
  · rename_i hk
    cases hr : Declaration.read l <;> simp [Except.toOption, hk]
  · rename_i hk
    simp [hk]

theorem link?_eq_some_iff {l : Line} {k : LinkStatement} :
    l.link? = some k ↔ l.kind = .link ∧ LinkStatement.read l = .ok k := by
  unfold Line.link?
  split
  · rename_i hk
    cases hr : LinkStatement.read l <;> simp [Except.toOption, hk]
  · rename_i hk
    simp [hk]

theorem first?_eq_some_iff {before : List Line} {l : Line} {d : Declaration} :
    first? before l = some d ↔
      l.declaration? = some d ∧ ∀ k ∈ before, k.declares d.id = false := by
  simp [first?, Option.filter_eq_some_iff]

/-- An identifier is kept exactly when some line declares it. -/
theorem find?_kept_eq_none_iff (h : List Line) (id : String) :
    (kept h).find? (·.id == id) = none ↔ ∀ l ∈ h, l.declares id = false := by
  induction h with
  | nil => simp [kept]
  | cons l before ih =>
    rw [kept, List.find?_append, Option.or_eq_none_iff, ih, List.forall_mem_cons, and_comm]
    refine and_congr_left fun hbefore => ?_
    unfold placed?
    cases hd : l.declaration? with
    | none => simp [first?, Line.declares, hd]
    | some d =>
      by_cases hid : d.id = id
      · have hf : first? before l = some d :=
          first?_eq_some_iff.mpr ⟨hd, by simpa only [hid] using hbefore⟩
        simp [hf, Line.declares, hd, hid]
      · have hne (e : Declaration) (he : first? before l = some e) : e.id ≠ id := by
          have := (first?_eq_some_iff.mp he).1
          rw [hd, Option.some.injEq] at this
          rwa [← this]
        cases hf : first? before l with
        | none => simp [Line.declares, hd, hid]
        | some e => simp [Line.declares, hd, hid, hne e hf]

/-- A kept declaration is the first of its identifier. -/
theorem find?_kept_of_placed? {before : List Line} {l : Line} {d : Declaration}
    (h : placed? before l = some d) : (kept before).find? (·.id == d.id) = none := by
  obtain ⟨e, he, rfl⟩ := Option.map_eq_some_iff.mp h
  exact (find?_kept_eq_none_iff before e.id).mpr (first?_eq_some_iff.mp he).2

theorem nodup_kept (h : List Line) : ((kept h).map (·.id)).Nodup := by
  induction h with
  | nil => exact List.nodup_nil
  | cons l before ih =>
    rw [kept]
    cases hp : placed? before l with
    | none => simpa using ih
    | some d =>
      have hnew := List.find?_eq_none.mp (find?_kept_of_placed? hp)
      have hfresh : d.id ∉ (kept before).map (·.id) := by
        intro hmem
        obtain ⟨e, he, hid⟩ := List.mem_map.mp hmem
        exact hnew e he (by simp [hid])
      simpa [List.nodup_append, ih] using hfresh

/-- A declaration line is read or rejected. -/
theorem read_declaration_cases {l : Line} (hl : l.Classified) (hk : l.kind = .declaration) :
    (∃ d, Declaration.read l = .ok d) ∨ ∃ f, Declaration.read l = .error (.rejected f) := by
  have hw := splitWord?_of_classify (hl.kind_eq ▸ hk)
  cases hr : Declaration.read l with
  | ok d => exact .inl ⟨d, rfl⟩
  | error e =>
    cases e with
    | rejected f => exact .inr ⟨f, rfl⟩
    | failed f => exact absurd hr (Declaration.read_ne_failed hw f)

@[simp] theorem links_cons (l : Line) (h : List Line) :
    links (l :: h) = links h ++ l.link?.toList := by
  cases hl : l.link? <;> simp [links, hl]

@[simp] theorem title?_cons (l : Line) (h : List Line) :
    title? (l :: h) = (title? h).or l.title? := by
  cases hl : l.title? <;> simp [title?, List.findSome?_append, hl]

/-- A line that is no declaration keeps none and opens no block. -/
theorem scanner_cons_of_kind {l : Line} (hk : l.kind ≠ .declaration) (h : List Line) :
    scanner (l :: h) =
      { declarations := kept h
        links := links h ++ l.link?.toList
        errors := diagnostics h ++ ((fault? h l).map (⟨l.number, ·⟩)).toList
        title := (title? h).or l.title?
        lineCount := l.number
        blocks := if l.closes then (openBlocks h).tail else openBlocks h } := by
  simp [scanner, kept, placed?, first?, diagnostics, openBlocks, Line.declaration?, Line.opens, hk]

theorem scanDeclaration_scanner {l : Line} (hl : l.Classified) (hk : l.kind = .declaration)
    (h : List Line) :
    { scanner h with lineCount := l.number }.scanDeclaration l = .ok (scanner (l :: h)) := by
  have hopens : l.opens = opensBlock l.text := by simp [Line.opens, hk]
  have hlinks : links (l :: h) = links h := by simp [Line.link?, hk]
  have htitle : title? (l :: h) = title? h := by simp [Line.title?, hk]
  have hcloses : l.closes = false := by simp [Line.closes, hk]
  rcases read_declaration_cases hl hk with ⟨d, hd⟩ | ⟨f, hf⟩
  · have hflag := Declaration.opensBlock_of_read hl hk hd
    have hline := Declaration.line_of_read hd
    have hsome := declaration?_eq_some_iff.mpr ⟨hk, hd⟩
    have hscan : { scanner h with lineCount := l.number }.scanDeclaration l =
        .ok ({ scanner h with lineCount := l.number }.keep d) := by
      simp [Scanner.scanDeclaration, hd]
    rw [hscan, Except.ok.injEq]
    -- the first of an identifier is kept and fills its slot, a later one is reported
    cases hfind : (kept h).find? (·.id == d.id) with
    | none =>
      have hfirst : first? h l = some d :=
        first?_eq_some_iff.mpr ⟨hsome, (find?_kept_eq_none_iff h d.id).mp hfind⟩
      have hfault : fault? h l = none := by simp [fault?, hk, hd, hfind]
      by_cases ho : opensBlock l.text = true
      · simp [Scanner.keep, scanner, kept, placed?, openBlocks, diagnostics, hfind, hfirst, hfault,
          hlinks, htitle, hopens, ho, hflag, hline, Scanner.openBlock, Scanner.enclosing?,
          enclosing?]
      · simp [Scanner.keep, scanner, kept, placed?, openBlocks, diagnostics, hfind, hfirst, hfault,
          hlinks, htitle, hopens, ho, hflag, hcloses, Scanner.enclosing?, enclosing?]
    | some e =>
      have hfirst : first? h l = none := by
        rw [Option.eq_none_iff_forall_ne_some]
        intro d' hd'
        obtain ⟨hs, hn⟩ := first?_eq_some_iff.mp hd'
        rw [hsome, Option.some.injEq] at hs
        subst hs
        rw [(find?_kept_eq_none_iff h d.id).mpr hn] at hfind
        cases hfind
      have hfault : fault? h l = some (.duplicateIdentifier d.id e.line) := by
        simp [fault?, hk, hd, hfind]
      by_cases ho : opensBlock l.text = true
      · simp [Scanner.keep, scanner, kept, placed?, openBlocks, diagnostics, hfind, hfirst, hfault,
          hlinks, htitle, hopens, ho, hflag, hline, Scanner.openBlock, Scanner.report]
      · simp [Scanner.keep, scanner, kept, placed?, openBlocks, diagnostics, hfind, hfirst, hfault,
          hlinks, htitle, hopens, ho, hflag, hline, hcloses, Scanner.report]
  · -- a rejected declaration leaves an empty slot when its line opens a block
    have hnone : l.declaration? = none := by simp [Line.declaration?, hk, hf, Except.toOption]
    have hfirst : first? h l = none := by simp [first?, hnone]
    have hfault : fault? h l = some f := by simp [fault?, hk, hf]
    by_cases ho : opensBlock l.text = true
    · simp [Scanner.scanDeclaration, hf, scanner, kept, placed?, openBlocks, diagnostics, hfirst,
        hfault, hlinks, htitle, hopens, ho, Scanner.openBlock, Scanner.report]
    · simp [Scanner.scanDeclaration, hf, scanner, kept, placed?, openBlocks, diagnostics, hfirst,
        hfault, hlinks, htitle, hopens, ho, hcloses, Scanner.report]

/-- One step: a line fed to the scanner of a history gives the scanner of the longer history. -/
theorem feed_scanner {l : Line} (hl : l.Classified) (h : List Line) :
    (scanner h).feed l = .ok (scanner (l :: h)) := by
  have hfeed : (scanner h).feed l = { scanner h with lineCount := l.number }.scanLine l := rfl
  rw [hfeed, Scanner.scanLine]
  by_cases hd : l.kind = .declaration
  · rw [hd]
    exact scanDeclaration_scanner hl hd h
  · rw [scanner_cons_of_kind hd h]
    cases hk : l.kind with
    | declaration => exact absurd hk hd
    | link =>
      cases hr : LinkStatement.read l <;>
        simp [Scanner.scanLink, Scanner.report, scanner, fault?, Line.link?, Line.title?,
          Line.closes, Except.toOption, hr, hk]
    | title =>
      cases hr : readTitle l with
      | error f =>
        simp [Scanner.scanTitle, Scanner.report, scanner, fault?, Line.link?, Line.title?,
          Line.closes, Except.toOption, hr, hk]
      | ok t =>
        cases ht : title? h <;>
          simp [Scanner.scanTitle, Scanner.report, scanner, fault?, Line.link?, Line.title?,
            Line.closes, Except.toOption, hr, hk, ht]
    | blockEnd =>
      cases hb : openBlocks h <;>
        simp [Scanner.scanBlockEnd, Scanner.report, scanner, fault?, Line.link?, Line.title?,
          Line.closes, hk, hb]
    | unknown =>
      simp [Scanner.report, scanner, fault?, Line.link?, Line.title?, Line.closes, hk]
    | comment => simp [scanner, fault?, Line.link?, Line.title?, Line.closes, hk]
    | blank => simp [scanner, fault?, Line.link?, Line.title?, Line.closes, hk]

/-- A whole run, from the scanner of any history. -/
theorem feedAll_scanner {ls : List Line} (hls : ∀ l ∈ ls, l.Classified) (h : List Line) :
    (scanner h).feedAll ls = .ok (scanner (ls.reverse ++ h)) := by
  induction ls generalizing h with
  | nil => rfl
  | cons l ls ih =>
    rw [Scanner.feedAll, feed_scanner (hls l (by simp)) h]
    dsimp only
    rw [ih (fun k hk => hls k (by simp [hk])) (l :: h)]
    simp

theorem classified_of_mem_sourceLines {source : String} {l : Line} (h : l ∈ sourceLines source) :
    l.Classified := by
  obtain ⟨i, hi, rfl⟩ := List.mem_mapIdx.mp h
  exact Line.classified_ofText _ _

/-- A scanned source is the scanner of its lines. -/
theorem scanned_eq_scanner (source : String) :
    scanned source = scanner (sourceLines source).reverse := by
  have hrun := feedAll_scanner
    (fun l (hl : l ∈ sourceLines source) => classified_of_mem_sourceLines hl) []
  have hscan := scan_eq_ok_scanned source
  unfold scan at hscan
  rw [List.append_nil] at hrun
  exact Except.ok.inj (hscan.symm.trans hrun)

/-- The outcome of a source is that of the scan of its lines. -/
theorem parse_eq_outcome (defaultTitle source : String) :
    parse defaultTitle source =
      (scanner (sourceLines source).reverse).close.outcome defaultTitle := by
  unfold parse
  rw [scanned_eq_scanner]
  rfl

end History

end ArchDiagram.Source
