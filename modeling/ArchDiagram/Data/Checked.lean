import ArchDiagram.Data.Value
import ArchDiagram.Number.Numeral
import ArchDiagram.Text.Separated

/-!
Reading typed values from plain data. A reading gives a value or every problem met, each with its
path, so that independent parts are all looked at. Numbers and switches are also taken from fitting
texts and from each other.
-/

namespace ArchDiagram.Data

inductive PathStep where
  | field (name : String)
  | index (i : Nat)
  deriving DecidableEq

inductive ProblemKind where
  | missing
  | stringType
  | listType
  | modelType
  | modelAttributesType
  | floatType
  | floatParsing
  | boolType
  | boolParsing
  | literalError
  deriving DecidableEq

def ProblemKind.code : ProblemKind → String
  | missing => "missing"
  | stringType => "string_type"
  | listType => "list_type"
  | modelType => "model_type"
  | modelAttributesType => "model_attributes_type"
  | floatType => "float_type"
  | floatParsing => "float_parsing"
  | boolType => "bool_type"
  | boolParsing => "bool_parsing"
  | literalError => "literal_error"

structure Problem where
  kind : ProblemKind
  path : List PathStep
  deriving DecidableEq

inductive Checked (α : Type) where
  | valid (a : α)
  | invalid (problems : List Problem)

namespace Checked

variable {α β : Type}

def map (f : α → β) : Checked α → Checked β
  | valid a => valid (f a)
  | invalid ps => invalid ps

/-- Applies a read function to a read argument; the problems of both are kept in order. -/
def apply : Checked (α → β) → Checked α → Checked β
  | valid f, valid a => valid (f a)
  | valid _, invalid ps => invalid ps
  | invalid ps, valid _ => invalid ps
  | invalid ps, invalid qs => invalid (ps ++ qs)

def fail (kind : ProblemKind) : Checked α :=
  invalid [⟨kind, []⟩]

/-- Places a reading below a step of the path. -/
def below (step : PathStep) : Checked α → Checked α
  | valid a => valid a
  | invalid ps => invalid (ps.map fun p => { p with path := step :: p.path })

end Checked

instance : Applicative Checked where
  pure := .valid
  map := Checked.map
  seq f x := Checked.apply f (x ())

variable {α : Type}

def readText : Value → Checked String
  | .text s => .valid s
  | _ => .fail .stringType

/-- A number in characters of the basic set. -/
def plainNumber? (cs : List Char) : Option Binary64 :=
  if cs.all (·.toNat < 128) then Numeral.number? cs else none

/-- A text without its underscores, each of which has to stand alone and inside the text. -/
def ungrouped? (cs : List Char) : Option (List Char) :=
  let pieces := Text.splitOn '_' cs
  if pieces.any List.isEmpty then none else some pieces.flatten

/-- A number in text has either blanks around it or underscores in it, which need not stand between
digits. -/
def readRealText (s : String) : Checked Binary64 :=
  match plainNumber? (Numeral.trimMargin s.toList) with
  | some v => .valid v
  | none =>
    match (ungrouped? s.toList).bind plainNumber? with
    | some v => .valid v
    | none => .fail .floatParsing

def readReal : Value → Checked Binary64
  | .real v => .valid v
  | .int i =>
    match Binary64.ofInt? i with
    | some v => .valid v
    | none => .fail .floatType
  | .bool b => .valid (.ofNat b.toNat)
  | .text s => readRealText s
  | _ => .fail .floatType

def trueTexts : List String := ["1", "on", "t", "true", "y", "yes"]

def falseTexts : List String := ["0", "off", "f", "false", "n", "no"]

/-- Words for yes and no, in capitals or not. -/
def readBoolText (s : String) : Checked Bool :=
  let word := s.map Char.toLower
  if trueTexts.contains word then .valid true
  else if falseTexts.contains word then .valid false
  else .fail .boolParsing

/-- Zero and one are switches. Any other integer is a misspelled one, or of the wrong type if it
takes more than 64 bits. -/
def readBoolInt (i : Int) : Checked Bool :=
  if i = 0 then .valid false
  else if i = 1 then .valid true
  else if -(pow2 63 : Int) ≤ i && i < pow2 63 then .fail .boolParsing
  else .fail .boolType

/-- The whole number that a real number is, within the range of 64-bit integers. -/
def smallWhole? : Binary64 → Option Int
  | .finite negative m =>
    let i := Binary64.signed negative m / Magnitude.one
    if m.units % Magnitude.one = 0 && i.natAbs < pow2 63 then some i else none
  | _ => none

def readBool : Value → Checked Bool
  | .bool b => .valid b
  | .int i => readBoolInt i
  | .real v =>
    match smallWhole? v with
    | some i => readBoolInt i
    | none => .fail .boolType
  | .text s => readBoolText s
  | _ => .fail .boolType

/-- `null` stands for an absent value. -/
def readOptional (read : Value → Checked α) : Value → Checked (Option α)
  | .null => .valid none
  | v => (read v).map some

/-- Reads elements from a position on. -/
def readElements (read : Value → Checked α) : Nat → List Value → Checked (List α)
  | _, [] => .valid []
  | i, v :: vs =>
    ((read v).below (.index i)).map List.cons |>.apply (readElements read (i + 1) vs)

def readList (read : Value → Checked α) : Value → Checked (List α)
  | .list vs => readElements read 0 vs
  | _ => .fail .listType

/-- A field that has to be there. -/
def readField (fields : List (String × Value)) (name : String) (read : Value → Checked α) :
    Checked α :=
  match field? fields name with
  | some v => (read v).below (.field name)
  | none => .invalid [⟨.missing, [.field name]⟩]

/-- A field that may be left out. -/
def readFieldOr (fields : List (String × Value)) (name : String) (default : α)
    (read : Value → Checked α) : Checked α :=
  match field? fields name with
  | some v => (read v).below (.field name)
  | none => .valid default

end ArchDiagram.Data
