import ArchDiagram.Source.Lexeme
import ArchDiagram.Text.Separated

/-!
Source lines. A source is cut at line feeds, and each line is trimmed and sorted by the kind of
statement it holds. Blank lines and comments keep their numbers.
-/

namespace ArchDiagram.Source

open Text

inductive LineKind where
  | declaration
  | link
  | title
  | blockEnd
  | comment
  | blank
  | unknown
  deriving DecidableEq

def LineKind.name : LineKind → String
  | declaration => "declaration"
  | link => "link"
  | title => "title"
  | blockEnd => "block_end"
  | comment => "comment"
  | blank => "blank"
  | unknown => "unknown"

structure Line where
  number : Int
  /-- Without the blanks at both ends. -/
  text : List Char
  kind : LineKind

/-- The kind of a trimmed line. The keyword of a declaration goes before an arrow, an arrow before
the title. -/
def classify (text : List Char) : LineKind :=
  let head := firstWord text
  if text.isEmpty then .blank
  else if "//".toList.isPrefixOf text then .comment
  else if head = "node".toList || head = "container".toList then .declaration
  else if (findArrow text).isSome then .link
  else if head = "title".toList || "title:".toList.isPrefixOf head then .title
  else if text = ['}'] then .blockEnd
  else .unknown

def Line.ofText (number : Int) (raw : List Char) : Line :=
  let text := trim raw
  ⟨number, text, classify text⟩

/-- The lines of a source, numbered from one. A carriage return before a line feed is trimmed as a
blank. -/
def sourceLines (source : String) : List Line :=
  (lines source.toList).mapIdx fun i raw => Line.ofText (i + 1) raw

/-- A declaration line has a first word. -/
theorem splitWord?_of_classify {text : List Char} (h : classify text = .declaration) :
    splitWord? text ≠ none := by
  intro hn
  have hf : firstWord text = [] := by simp [firstWord, hn]
  unfold classify at h
  simp only [hf] at h
  repeat' split at h
  all_goals simp_all

end ArchDiagram.Source
