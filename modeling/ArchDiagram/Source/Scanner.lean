import ArchDiagram.Source.Reference
import ArchDiagram.Source.Title

/-!
Reading a source line by line. A scanner keeps the accepted statements, the blocks still open, and
every fault found; finishing it checks the references and gives a document, or all diagnostics in
the order of their lines.
-/

namespace ArchDiagram.Source

open Text

/-- An open block: its container, unless the declaration was dropped, and the line of the brace. -/
structure Block where
  container : Option String
  line : Int
  deriving DecidableEq

inductive Phase where
  | scanning
  | done
  deriving DecidableEq

structure Scanner where
  phase : Phase := .scanning
  declarations : List Declaration := []
  links : List LinkStatement := []
  /-- In the order in which they were found. -/
  errors : List Diagnostic := []
  title : Option Title := none
  /-- The number of the last line. -/
  lineCount : Int := 0
  /-- The innermost block first. -/
  blocks : List Block := []

/-- The result of a source: a document, or the diagnostics that stand against it. -/
inductive Outcome where
  | success (document : Document Binary64)
  | invalid (errors : List Diagnostic)

def Outcome.document? : Outcome → Option (Document Binary64)
  | success d => some d
  | invalid _ => none

def Outcome.errors : Outcome → List Diagnostic
  | success _ => []
  | invalid errors => errors

def Outcome.firstErrorLine? (o : Outcome) : Option Int :=
  o.errors.head?.map (·.line)

def Declaration.toItem (d : Declaration) : Item Binary64 :=
  { id := d.id, label := d.label, frame := d.frame, parent := d.parent }

def Declaration.toNode (d : Declaration) : Node Binary64 :=
  { toItem := d.toItem, icon := d.icon }

namespace Scanner

def report (s : Scanner) (line : Int) (fault : Fault) : Scanner :=
  { s with errors := s.errors ++ [⟨line, fault⟩] }

def openBlock (s : Scanner) (container : Option String) (line : Int) : Scanner :=
  { s with blocks := ⟨container, line⟩ :: s.blocks }

/-- The innermost open container that was kept. -/
def enclosing? (s : Scanner) : Option String :=
  s.blocks.findSome? (·.container)

/-- Keeps the first declaration of an identifier. A block is opened even when its declaration is
dropped, so that braces stay balanced. -/
def keep (s : Scanner) (d : Declaration) : Scanner :=
  match s.declarations.find? (·.id == d.id) with
  | some first =>
    let s := s.report d.line (.duplicateIdentifier d.id first.line)
    if d.opensBlock then s.openBlock none d.line else s
  | none =>
    let d := { d with parent := d.parent <|> s.enclosing? }
    let s := { s with declarations := s.declarations ++ [d] }
    if d.opensBlock then s.openBlock d.id d.line else s

def scanDeclaration (s : Scanner) (line : Line) : Except Failure Scanner :=
  match Declaration.read line with
  | .ok d => .ok (s.keep d)
  | .error (.failed f) => .error f
  | .error (.rejected fault) =>
    let s := s.report line.number fault
    .ok (if opensBlock line.text then s.openBlock none line.number else s)

def scanLink (s : Scanner) (line : Line) : Scanner :=
  match LinkStatement.read line with
  | .ok l => { s with links := s.links ++ [l] }
  | .error fault => s.report line.number fault

/-- The first well-formed title counts. -/
def scanTitle (s : Scanner) (line : Line) : Scanner :=
  match readTitle line with
  | .error fault => s.report line.number fault
  | .ok text =>
    match s.title with
    | some first => s.report line.number (.repeatedTitle first.line)
    | none => { s with title := some ⟨text, line.number⟩ }

def scanBlockEnd (s : Scanner) (line : Line) : Scanner :=
  match s.blocks with
  | [] => s.report line.number .unmatchedBrace
  | _ :: rest => { s with blocks := rest }

def scanLine (s : Scanner) (line : Line) : Except Failure Scanner :=
  match line.kind with
  | .comment | .blank => .ok s
  | .declaration => s.scanDeclaration line
  | .link => .ok (s.scanLink line)
  | .title => .ok (s.scanTitle line)
  | .blockEnd => .ok (s.scanBlockEnd line)
  | .unknown => .ok (s.report line.number (.unrecognized (String.ofList line.text)))

/-- Takes one more line; there are none after the end. -/
def feed (s : Scanner) (line : Line) : Except Failure Scanner :=
  match s.phase with
  | .done => .error .alreadyFinished
  | .scanning => { s with lineCount := line.number }.scanLine line

def declaredIds (s : Scanner) : List String :=
  s.declarations.map (·.id)

/-- A diagnostic for each block still open, the outermost first. -/
def unclosed (s : Scanner) : List Diagnostic :=
  s.blocks.reverse.map fun b => ⟨b.line, .unclosedBlock b.container⟩

/-- What the check of the references finds: links first, then parents. -/
def unresolved (s : Scanner) : List Diagnostic :=
  linkDiagnostics s.declaredIds s.links ++ parentDiagnostics s.declarations

/-- Closes the scan and adds what only the whole source shows. -/
def close (s : Scanner) : Scanner :=
  { s with
    phase := .done
    blocks := []
    errors := s.errors ++ s.unclosed ++ s.unresolved }

/-- The document of the accepted statements. -/
def document (defaultTitle : String) (s : Scanner) : Document Binary64 :=
  { title := (s.title.map (·.text)).getD defaultTitle
    nodes := (s.declarations.filter (!·.isContainer)).map Declaration.toNode
    containers := (s.declarations.filter (·.isContainer)).map Declaration.toItem
    links := resolvedLinks s.declaredIds s.links }

/-- Diagnostics in the order of their lines; those of one line stay in the order in which they were
found. -/
def sortedErrors (s : Scanner) : List Diagnostic :=
  s.errors.mergeSort fun a b => a.line ≤ b.line

def outcome (defaultTitle : String) (s : Scanner) : Outcome :=
  if s.errors.isEmpty then .success (s.document defaultTitle) else .invalid s.sortedErrors

/-- Closes the scan and gives its outcome. It may be asked again, and then checks the references
again. -/
def finish (defaultTitle : String) (s : Scanner) : Scanner × Outcome :=
  (s.close, s.close.outcome defaultTitle)

/-- Feeds lines one after the other. -/
def feedAll : Scanner → List Line → Except Failure Scanner
  | s, [] => .ok s
  | s, line :: rest =>
    match s.feed line with
    | .ok s => s.feedAll rest
    | .error f => .error f

theorem phase_keep (s : Scanner) (d : Declaration) : (s.keep d).phase = s.phase := by
  unfold keep
  split <;> dsimp only <;> split <;> rfl

theorem phase_scanLink (s : Scanner) (line : Line) : (s.scanLink line).phase = s.phase := by
  unfold scanLink
  split <;> rfl

theorem phase_scanTitle (s : Scanner) (line : Line) : (s.scanTitle line).phase = s.phase := by
  unfold scanTitle
  split
  · rfl
  · split <;> rfl

theorem phase_scanBlockEnd (s : Scanner) (line : Line) : (s.scanBlockEnd line).phase = s.phase := by
  unfold scanBlockEnd
  split <;> rfl

theorem scanDeclaration_ok (s : Scanner) (line : Line) (h : splitWord? line.text ≠ none) :
    ∃ t, s.scanDeclaration line = .ok t ∧ t.phase = s.phase := by
  unfold scanDeclaration
  split
  · exact ⟨_, rfl, phase_keep _ _⟩
  · rename_i f hf
    exact absurd hf (Declaration.read_ne_failed h f)
  · refine ⟨_, rfl, ?_⟩
    split <;> rfl

/-- A scanner takes every line while it scans, and goes on scanning. -/
theorem feed_ofText {s : Scanner} (hs : s.phase = .scanning) (n : Int) (raw : List Char) :
    ∃ t, s.feed (Line.ofText n raw) = .ok t ∧ t.phase = .scanning := by
  unfold feed
  split
  · rename_i h
    rw [hs] at h
    cases h
  · unfold scanLine
    split
    · exact ⟨_, rfl, hs⟩
    · exact ⟨_, rfl, hs⟩
    · rename_i hk
      obtain ⟨t, ht, hp⟩ := scanDeclaration_ok { s with lineCount := n } (.ofText n raw)
        (splitWord?_of_classify hk)
      exact ⟨t, ht, hp.trans hs⟩
    · exact ⟨_, rfl, (phase_scanLink _ _).trans hs⟩
    · exact ⟨_, rfl, (phase_scanTitle _ _).trans hs⟩
    · exact ⟨_, rfl, (phase_scanBlockEnd _ _).trans hs⟩
    · exact ⟨_, rfl, hs⟩

theorem feedAll_ofText {s : Scanner} (hs : s.phase = .scanning) {ls : List Line}
    (h : ∀ l ∈ ls, ∃ n raw, l = Line.ofText n raw) : ∃ t, s.feedAll ls = .ok t := by
  induction ls generalizing s with
  | nil => exact ⟨s, rfl⟩
  | cons l ls ih =>
    obtain ⟨n, raw, rfl⟩ := h l (by simp)
    obtain ⟨t, ht, hp⟩ := feed_ofText hs n raw
    obtain ⟨u, hu⟩ := ih hp fun l hl => h l (by simp [hl])
    exact ⟨u, by simp [feedAll, ht, hu]⟩

end Scanner

end ArchDiagram.Source
