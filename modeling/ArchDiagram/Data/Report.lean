import ArchDiagram.Data.Document
import ArchDiagram.Lint
import ArchDiagram.Source.Parse

/-!
Outcomes and lint reports as plain data.
-/

namespace ArchDiagram.Data

def ofNat (n : Nat) : Value :=
  .int n

def ofDiagnostic (d : Source.Diagnostic) : Value :=
  .record [("line", .int d.line), ("message", .text d.fault.message)]

/-- Either the document or the diagnostics, never both. -/
def ofOutcome (o : Source.Outcome) : Value :=
  match o with
  | .success d => .record [("status", .text "success"), ("document", ofDocument d)]
  | .invalid errors =>
    .record [("status", .text "invalid"), ("errors", .list (errors.map ofDiagnostic)),
      ("first_error_line", match o.firstErrorLine? with
        | some n => .int n
        | none => .null)]

def ofFinding (f : Lint.Finding) : Value :=
  .record [("severity", .text f.severity.name), ("code", .text f.code),
    ("message", .text f.message), ("node_id", .optText f.itemId?), ("link_id", .optText f.linkId?),
    ("suggestion", .text f.suggestion)]

def ofStats (s : Lint.Stats) : Value :=
  .record [("nodes", ofNat s.nodes), ("containers", ofNat s.containers), ("links", ofNat s.links),
    ("bidirectional_links", ofNat s.bidirectionalLinks), ("orphaned_nodes", ofNat s.orphanedNodes)]

def ofReport (r : Lint.Report) : Value :=
  .record [("is_valid", .bool r.isValid), ("error_count", ofNat (r.count .error)),
    ("warning_count", ofNat (r.count .warning)), ("info_count", ofNat (r.count .info)),
    ("issues", .list (r.findings.map ofFinding)), ("stats", ofStats r.stats)]

end ArchDiagram.Data
