import ArchDiagram.Render.D2
import ArchDiagram.Render.Mermaid
import ArchDiagram.Source.Writer

/-!
Writing a document in one of the output formats.
-/

namespace ArchDiagram.Render

inductive Format where
  | dsl
  | mermaid
  | d2
  deriving DecidableEq

def Format.name : Format → String
  | dsl => "dsl"
  | mermaid => "mermaid"
  | d2 => "d2"

def Format.all : List Format := [.dsl, .mermaid, .d2]

def Format.ofName? (name : String) : Option Format :=
  Format.all.find? (·.name = name)

inductive ExportFault where
  | unknownFormat (name : String)
  | unwritable (reason : Source.Unwritable)
  /-- Containers hold each other without end. -/
  | endless
  deriving DecidableEq

def ExportFault.message : ExportFault → String
  | unknownFormat name =>
    "Unknown output format '" ++ name ++ "'. Expected one of: " ++
      String.intercalate ", " (Format.all.map Format.name)
  | unwritable reason => reason.message
  | endless => "Containers are nested without end"

/-- Writes a document; only D2 looks up icons. -/
def write (defaultTitle : String) (r : Icon.Registry) (d : Document Binary64) :
    Format → Except ExportFault (String × Icon.Registry)
  | .dsl =>
    match Source.write defaultTitle d with
    | .ok s => .ok (s, r)
    | .error reason => .error (.unwritable reason)
  | .mermaid =>
    match Mermaid.render? d with
    | some s => .ok (s, r)
    | none => .error .endless
  | .d2 =>
    match D2.render? r d with
    | some result => .ok result
    | none => .error .endless

/-- Writes a document in the format of a given name. -/
def writeNamed (defaultTitle : String) (r : Icon.Registry) (d : Document Binary64)
    (format : String) : Except ExportFault (String × Icon.Registry) :=
  match Format.ofName? format with
  | some f => write defaultTitle r d f
  | none => .error (.unknownFormat format)

end ArchDiagram.Render
