import ArchDiagram.Source.Declaration
import ArchDiagram.Source.Link
import ArchDiagram.Walk

/-!
References between statements, checked when all are known, so that a use may stand before its
declaration. Both ends of a link have to be declared; a parent has to be a declared container, and
no container may enclose itself.
-/

namespace ArchDiagram.Source

/-- Whether both ends of a link are known, and a fault for each that is not. -/
def endFaults (known : List String) (l : LinkStatement) : List Fault :=
  (if known.contains l.source then [] else [.unknownEnd .source l.source]) ++
    if known.contains l.target then [] else [.unknownEnd .target l.target]

def linkDiagnostics (known : List String) (links : List LinkStatement) : List Diagnostic :=
  links.flatMap fun l => (endFaults known l).map (⟨l.line, ·⟩)

/-- The links whose ends are known, numbered in source order. -/
def resolvedLinks (known : List String) (links : List LinkStatement) : List Link :=
  (links.filter fun l => (endFaults known l).isEmpty).mapIdx fun i l =>
    { id := "l" ++ toString (i + 1)
      source := l.source
      target := l.target
      bidirectional := l.bidirectional
      label := l.label }

/-- The container of a given identifier; of several the last. -/
def container? (ds : List Declaration) (id : String) : Option Declaration :=
  ds.reverse.find? fun d => d.isContainer && d.id == id

def isNodeId (ds : List Declaration) (id : String) : Bool :=
  ds.any fun d => !d.isContainer && d.id == id

/-- A place on the way up from a container: where it is, and what it has passed. -/
structure Ascent where
  current : Option Declaration
  seen : List String

/-- One step up. It ends at the outermost container, on return to `start`, and in a loop that does
not contain `start`. -/
def Ascent.step (ds : List Declaration) (start : String) (a : Ascent) : Ascent ⊕ Bool :=
  match a.current with
  | none => .inr false
  | some c =>
    match c.parent with
    | none => .inr false
    | some p =>
      if p = start then .inr true
      else if a.seen.contains p then .inr false
      else .inl ⟨container? ds p, c.id :: a.seen⟩

/-- Whether the way up from a container returns to it. -/
def inCycle (ds : List Declaration) (d : Declaration) : Bool :=
  (walk? (Ascent.step ds d.id) (ds.length + 3)
    ⟨d.parent.bind (container? ds), [d.id]⟩).getD false

def parentFault? (ds : List Declaration) (d : Declaration) : Option Fault :=
  d.parent.bind fun p =>
    if p = d.id then some (.ownParent d.id)
    else if isNodeId ds p then some (.parentIsNode p d.id)
    else if (container? ds p).isNone then some (.unknownParent p d.id)
    else if d.isContainer && inCycle ds d then some (.nestedInItself d.id)
    else none

def parentDiagnostics (ds : List Declaration) : List Diagnostic :=
  ds.filterMap fun d => (parentFault? ds d).map (⟨d.line, ·⟩)

end ArchDiagram.Source
