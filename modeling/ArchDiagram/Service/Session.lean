import ArchDiagram.Layout
import ArchDiagram.Render.Export
import ArchDiagram.Lint
import ArchDiagram.Service.Log
import ArchDiagram.Source.Parse

/-!
A session: the settings, the icon registry that all requests share, and the log. Every operation
gives its result and the session after it.
-/

namespace ArchDiagram

def Settings.grid (s : Settings) : Grid Binary64 :=
  { nodeWidth := s.nodeWidth
    nodeHeight := s.nodeHeight
    spacingX := s.spacingX
    spacingY := s.spacingY
    columns := s.columns }

namespace Service

structure Session where
  settings : Settings
  registry : Icon.Registry := {}
  log : List Event := []

namespace Session

def record (s : Session) (e : Event) : Session :=
  { s with log := s.log ++ [e] }

/-- Takes over a later state of the registry and records the loads since. -/
def advance (s : Session) (r : Icon.Registry) : Session :=
  { s with
    registry := r
    log := s.log ++ (r.loads.drop s.registry.loads.length).flatMap Event.ofLoad }

/-- Closes a scanner. -/
def finish (s : Session) (scanner : Source.Scanner) : Source.Scanner × Source.Outcome × Session :=
  let (closed, outcome) := scanner.finish s.settings.defaultTitle
  (closed, outcome, s.record (.ofScanner closed))

def parse (s : Session) (source : String) : Source.Outcome × Session :=
  (s.finish (Source.scanned source)).2

def layout (s : Session) (d : Document Binary64) : Document Binary64 :=
  Layout.apply s.settings.grid d

def write (s : Session) (d : Document Binary64) (format : String) :
    Except Render.ExportFault String × Session :=
  match Render.writeNamed s.settings.defaultTitle s.registry d format with
  | .ok (text, r) => (.ok text, s.advance r)
  | .error fault => (.error fault, s)

def validate (s : Session) (strict : Bool) (d : Document Binary64) : Lint.Report × Session :=
  let (report, r) := Lint.check strict s.registry d
  (report, s.advance r)

def preload (s : Session) : Session :=
  s.advance s.registry.preload

/-- Makes calls on the registry. -/
def call (s : Session) (calls : List Icon.Call) : List (Icon.Answer × Icon.Status) × Session :=
  let (answers, r) := s.registry.run calls
  (answers, s.advance r)

end Session

end Service

end ArchDiagram
