import ArchDiagram.Document
import ArchDiagram.Icon.Registry

/-!
Advice on a document that has been read: things its author probably did not mean. Findings are
listed kind by kind; warnings only count against a document when it is judged strictly.
-/

namespace ArchDiagram.Lint

inductive Severity where
  | error
  | warning
  | info
  deriving DecidableEq

def Severity.name : Severity → String
  | error => "error"
  | warning => "warning"
  | info => "info"

inductive Finding where
  | emptyDiagram
  | noLinks (nodes : Nat)
  | orphanedNode (label id : String)
  | selfLoop (id link : String)
  | duplicateLink (source target : String) (bidirectional : Bool) (count : Nat) (second : String)
  | unknownIcon (icon node : String)
  | emptyContainer (label id : String)
  deriving DecidableEq

namespace Finding

def severity : Finding → Severity
  | noLinks _ | duplicateLink .. | emptyContainer .. => .info
  | _ => .warning

def code : Finding → String
  | emptyDiagram => "EMPTY_DIAGRAM"
  | noLinks _ => "NO_LINKS"
  | orphanedNode .. => "ORPHANED_NODE"
  | selfLoop .. => "SELF_LOOP"
  | duplicateLink .. => "DUPLICATE_LINK"
  | unknownIcon .. => "UNKNOWN_ICON"
  | emptyContainer .. => "EMPTY_CONTAINER"

def message : Finding → String
  | emptyDiagram => "Diagram declares no nodes or containers"
  | noLinks n => "Diagram has " ++ toString n ++ " nodes but no links"
  | orphanedNode label id => "Node '" ++ label ++ "' (" ++ id ++ ") has no links"
  | selfLoop id _ => "Link creates self-loop on '" ++ id ++ "'"
  | duplicateLink source target bidirectional count _ =>
    "Link '" ++ source ++ (if bidirectional then " <-> " else " -> ") ++ target ++ "' appears " ++
      toString count ++ " times"
  | unknownIcon icon node => "Icon '" ++ icon ++ "' on '" ++ node ++ "' is not in the icon library"
  | emptyContainer label id => "Container '" ++ label ++ "' (" ++ id ++ ") is empty"

/-- The item that a finding is about. -/
def itemId? : Finding → Option String
  | orphanedNode _ id | selfLoop id _ | unknownIcon _ id | emptyContainer _ id => some id
  | _ => none

/-- The link that a finding is about. -/
def linkId? : Finding → Option String
  | selfLoop _ link => some link
  | duplicateLink _ _ _ _ second => some second
  | _ => none

def suggestion : Finding → String
  | emptyDiagram => "Add a declaration such as: node api: \"API\""
  | noLinks _ => "Connect components with: a -> b"
  | orphanedNode .. => "Link this node to other components or remove it if unused"
  | selfLoop .. => "Remove self-referencing link unless intentional"
  | duplicateLink .. => "Consider consolidating duplicate links"
  | unknownIcon .. => "The generic icon will be drawn instead"
  | emptyContainer .. => "Declare nodes inside its \x7b \x7d block or with parent="

end Finding

variable {α : Type}

/-- Whether an item is an end of some link. -/
def isConnected (d : Document α) (id : String) : Bool :=
  d.links.any fun l => l.source == id || l.target == id

def orphans (d : Document α) : List (Node α) :=
  d.nodes.filter fun n => !isConnected d n.id

def emptiness (d : Document α) : List Finding :=
  if d.nodes.isEmpty && d.containers.isEmpty then [.emptyDiagram]
  else if d.links.isEmpty && 1 < d.nodes.length then [.noLinks d.nodes.length]
  else []

/-- A single node needs no links. -/
def orphanedNodes (d : Document α) : List Finding :=
  if d.nodes.length < 2 then [] else (orphans d).map fun n => .orphanedNode n.label n.id

def selfLoops (d : Document α) : List Finding :=
  (d.links.filter fun l => l.source == l.target).map fun l => .selfLoop l.source l.id

/-- What two links have in common when one repeats the other; no label counts as an empty one. -/
structure LinkKey where
  source : String
  target : String
  bidirectional : Bool
  label : String
  deriving DecidableEq

def linkKey (l : Link) : LinkKey :=
  ⟨l.source, l.target, l.bidirectional, l.label.getD ""⟩

/-- One finding for each repeated link, in the order of first occurrence. -/
def duplicateLinks (d : Document α) : List Finding :=
  (d.links.map linkKey).eraseDups.filterMap fun k =>
    let same := d.links.filter (linkKey · == k)
    match same with
    | _ :: second :: _ =>
      some (.duplicateLink k.source k.target k.bidirectional same.length second.id)
    | _ => none

/-- Looks up the icons of the nodes one after the other. -/
def unknownIcons : Icon.Registry → List (Node α) → List Finding × Icon.Registry
  | r, [] => ([], r)
  | r, n :: ns =>
    match n.icon.filter (!·.isEmpty) with
    | none => unknownIcons r ns
    | some tag =>
      let (icon, r) := r.resolve tag
      let (rest, last) := unknownIcons r ns
      if icon = tag then (rest, last) else (.unknownIcon tag n.id :: rest, last)

def emptyContainers (d : Document α) : List Finding :=
  (d.containers.filter fun c => !d.items.any (·.parent == some c.id)).map fun c =>
    .emptyContainer c.label c.id

structure Stats where
  nodes : Nat
  containers : Nat
  links : Nat
  bidirectionalLinks : Nat
  orphanedNodes : Nat
  deriving DecidableEq

def stats (d : Document α) : Stats :=
  { nodes := d.nodes.length
    containers := d.containers.length
    links := d.links.length
    bidirectionalLinks := d.links.countP (·.bidirectional)
    orphanedNodes := (orphans d).length }

structure Report where
  isValid : Bool
  findings : List Finding
  stats : Stats

namespace Report

def count (r : Report) (s : Severity) : Nat :=
  r.findings.countP (·.severity = s)

def summary (r : Report) : String :=
  (if r.isValid then "Valid" else "Invalid") ++ " | Errors: " ++ toString (r.count .error) ++
    ", Warnings: " ++ toString (r.count .warning) ++ ", Info: " ++ toString (r.count .info)

end Report

/-- Errors always count against a document, warnings only in strict judgement. -/
def isValid (strict : Bool) (findings : List Finding) : Bool :=
  findings.all fun f => f.severity ≠ .error && !(strict && f.severity = .warning)

/-- Looks for everything; looking up icons may load the catalog. -/
def check (strict : Bool) (r : Icon.Registry) (d : Document α) : Report × Icon.Registry :=
  let (icons, r) := unknownIcons r d.nodes
  let findings := emptiness d ++ orphanedNodes d ++ selfLoops d ++ duplicateLinks d ++ icons ++
    emptyContainers d
  ({ isValid := isValid strict findings, findings, stats := stats d }, r)

end ArchDiagram.Lint
