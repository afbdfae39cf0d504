import ArchDiagram.Icon.Registry
import ArchDiagram.Settings
import ArchDiagram.Source.Scanner

/-!
What is recorded about the work: every parse, refused requests, and every load of the icon catalog.
-/

namespace ArchDiagram.Service

inductive Channel where
  | source
  | icons
  | requests
  deriving DecidableEq

inductive Event where
  | parsed (lines : Int) (declarations links errors : Nat)
  | refused (errors : Nat) (first : Int)
  | catalogFailed (reason : String)
  | catalogLoaded (icons : Nat)
  deriving DecidableEq

namespace Event

def level : Event → LogLevel
  | refused .. => .info
  | catalogFailed _ => .warning
  | _ => .debug

def channel : Event → Channel
  | parsed .. => .source
  | refused .. => .requests
  | catalogFailed _ | catalogLoaded _ => .icons

def message : Event → String
  | parsed lines declarations links errors =>
    "Parsed " ++ toString lines ++ " lines: " ++ toString declarations ++ " declarations, " ++
      toString links ++ " links, " ++ toString errors ++ " errors"
  | refused errors first =>
    "Parse failed with " ++ toString errors ++ " errors (first on line " ++ toString first ++ ")"
  | catalogFailed reason => "Failed to load cloud icon library: " ++ reason
  | catalogLoaded n => "Cloud icon library loaded with " ++ toString n ++ " icons"

/-- The record of a scanner that has been closed. -/
def ofScanner (s : Source.Scanner) : Event :=
  parsed s.lineCount s.declarations.length s.links.length s.errors.length

/-- A failed load is recorded as such, and then as a load of nothing. -/
def ofLoad (l : Icon.Load) : List Event :=
  match l.outcome with
  | .ok c => [catalogLoaded c.icons.length]
  | .error reason => [catalogFailed reason, catalogLoaded 0]

end Event

end ArchDiagram.Service
