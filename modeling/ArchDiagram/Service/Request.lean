import ArchDiagram.Data.Report
import ArchDiagram.Service.Session
import ArchDiagram.Service.Target

/-!
Requests to the service and its responses. A request names a route by path and method and carries
plain data; data that does not fit is answered with every problem found. A source that cannot be
read is no failure of the request: the answer lists the diagnostics.
-/

namespace ArchDiagram.Service

open Data

def title : String := "CubeGen DSL Service"

def version : String := "0.1.0"

inductive Route where
  | checkHealth
  | parseSource
  | exportSource
  | validateSource
  | listIcons
  deriving DecidableEq

namespace Route

def all : List Route := [checkHealth, parseSource, exportSource, validateSource, listIcons]

def path : Route → String
  | checkHealth => "/health"
  | parseSource => "/parse"
  | exportSource => "/export"
  | validateSource => "/validate"
  | listIcons => "/icons"

def method : Route → String
  | checkHealth | listIcons => "GET"
  | _ => "POST"

/-- The route at the place of a target. -/
def ofTarget? (t : Target) : Option Route :=
  all.find? (·.path = t.place)

/-- Methods are named in capitals or not. -/
def allows (r : Route) (method : String) : Bool :=
  String.ofList (Text.upper method.toList) = r.method

end Route

structure Request where
  method : String
  target : Target
  origin : Option String := none
  body : Option Value := none

inductive Content where
  | data (v : Value)
  | problems (ps : List Problem)

structure Response where
  status : Nat
  allowOrigin : Option String
  content : Content

/-- A request that is understood and cannot be met. -/
structure Refusal where
  status : Nat
  detail : String

def Refusal.message (r : Refusal) : String :=
  toString r.status ++ ": " ++ r.detail

namespace Session

/-- Reads a source; what is refused is also recorded. -/
def answerParse (s : Session) (source : String) : Value × Session :=
  let (outcome, s) := s.parse source
  let s := match outcome.firstErrorLine? with
    | some first => s.record (.refused outcome.errors.length first)
    | none => s
  (ofOutcome outcome, s)

/-- Reads a source and writes it in another format, on request with all geometry filled in. -/
def answerExport (s : Session) (source format : String) (applyLayout : Bool) :
    Except Refusal Value × Session :=
  let (outcome, s) := s.parse source
  match outcome with
  | .invalid _ => (.ok (ofOutcome outcome), s)
  | .success d =>
    let d := if applyLayout then s.layout d else d
    match s.write d format with
    | (.ok text, s) =>
      (.ok (.record [("status", .text "success"), ("format", .text format),
        ("output", .text text)]), s)
    | (.error fault, s) => (.error ⟨400, fault.message⟩, s)

def answerValidate (s : Session) (source : String) (strict : Bool) : Value × Session :=
  let (outcome, s) := s.parse source
  match outcome with
  | .invalid _ => (ofOutcome outcome, s)
  | .success d =>
    let (report, s) := s.validate strict d
    (.record [("status", .text (if report.isValid then "success" else "invalid")),
      ("summary", .text report.summary), ("is_valid", .bool report.isValid),
      ("issues", .list (report.findings.map ofFinding)), ("stats", ofStats report.stats)], s)

def answerIcons (s : Session) (preload : Bool) : Value × Session :=
  let s := if preload then s.preload else s
  (.record [("state", .text s.registry.status.name),
    ("icons", .list (s.registry.status.names.map .text))], s)

end Session

/-- The format of an export, one of the known names. -/
def readFormat : Value → Checked String
  | .text name => if (Render.Format.ofName? name).isSome then .valid name else .fail .literalError
  | _ => .fail .literalError

/-- Reads the body of a request, which has to be a record. -/
def readBody {α : Type} (read : List (String × Value) → Checked α)
    (body : Option Value) : Checked α :=
  Checked.below (.field "body") <|
    match body with
    | none | some .null => .fail .missing
    | some (.record fields) => read fields
    | some _ => .fail .modelAttributesType

namespace Session

/-- The answer of a route: its content, with the status it goes out with. -/
def answer (s : Session) (route : Route) (r : Request) : (Nat × Content) × Session :=
  let checked {α : Type} (c : Checked α) (next : α → (Nat × Content) × Session) :
      (Nat × Content) × Session :=
    match c with
    | .valid a => next a
    | .invalid ps => ((422, .problems ps), s)
  let ok (result : Value × Session) : (Nat × Content) × Session :=
    ((200, .data result.1), result.2)
  match route with
  | .checkHealth => ok (.record [("status", .text "ok")], s)
  | .parseSource =>
    checked (readBody (readField · "source" readText) r.body) fun source =>
      ok (s.answerParse source)
  | .exportSource =>
    let request := readBody (fun fields =>
      (fun source format applyLayout => (source, format, applyLayout))
        <$> readField fields "source" readText
        <*> readFieldOr fields "format" "mermaid" readFormat
        <*> readFieldOr fields "apply_layout" false readBool) r.body
    checked request fun (source, format, applyLayout) =>
      match s.answerExport source format applyLayout with
      | (.ok v, s) => ok (v, s)
      | (.error refusal, s) =>
        ((refusal.status, .data (.record [("detail", .text refusal.detail)])), s)
  | .validateSource =>
    let request := readBody (fun fields =>
      (fun source strict => (source, strict))
        <$> readField fields "source" readText
        <*> readFieldOr fields "strict" false readBool) r.body
    checked request fun (source, strict) => ok (s.answerValidate source strict)
  | .listIcons =>
    let preload := match r.target.parameter? "preload" with
      | some text => ((readBoolText text).below (.field "preload")).below (.field "query")
      | none => .valid false
    checked preload fun preload => ok (s.answerIcons preload)

/-- The origin that may use a response: the one that asks, if it is listed or a star is. -/
def allowedOrigin (s : Session) (origin : Option String) : Option String :=
  origin.filter fun o => s.settings.origins.contains "*" || s.settings.origins.contains o

def handle (s : Session) (r : Request) : Response × Session :=
  let detail (status : Nat) (text : String) : (Nat × Content) × Session :=
    ((status, .data (.record [("detail", .text text)])), s)
  let ((status, content), last) := match Route.ofTarget? r.target with
    | none => detail 404 "Not Found"
    | some route =>
      if route.allows r.method then s.answer route r else detail 405 "Method Not Allowed"
  ({ status, allowOrigin := s.allowedOrigin r.origin, content }, last)

/-- Answers requests in order. -/
def handleAll : Session → List Request → List Response × Session
  | s, [] => ([], s)
  | s, r :: rs =>
    let (response, s) := s.handle r
    let (rest, s) := handleAll s rs
    (response :: rest, s)

end Session

end ArchDiagram.Service
