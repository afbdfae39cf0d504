import ArchDiagram.Document
import ArchDiagram.Number.Numeral
import ArchDiagram.Source.Fault
import ArchDiagram.Source.Line

/-!
Declarations: a keyword, an identifier, a colon, a quoted label, attributes, and for containers an
optional brace that opens a block, as in `container vpc: "VPC" w=600 h=400 {`.

Attributes are read from left to right. Of several that set one field the last counts, and an empty
value leaves the field as it is, or for an icon and a parent clears it. Unknown keys are accepted
and have no effect.
-/

namespace ArchDiagram.Source

open Text

/-- What attributes can set. -/
structure Attributes where
  icon : Option String := none
  frame : Frame Binary64 := {}
  parent : Option String := none

structure Declaration extends Attributes where
  keyword : String
  id : String
  label : String
  line : Int
  opensBlock : Bool := false

def Declaration.isContainer (d : Declaration) : Bool :=
  d.keyword == "container"

inductive Key where
  | side (s : Side)
  | icon
  | parent
  | other
  deriving DecidableEq

def Key.ofText (key : String) : Key :=
  if key = "x" then .side .x
  else if key = "y" then .side .y
  else if key = "w" || key = "width" then .side .width
  else if key = "h" || key = "height" then .side .height
  else if key = "icon" then .icon
  else if key = "parent" then .parent
  else .other

/-- A text as an optional value: empty means absent. -/
def nonempty? (cs : List Char) : Option String :=
  if cs.isEmpty then none else some (String.ofList cs)

/-- A coordinate: a finite number in the narrow form. -/
def readCoordinate (key owner : String) (value : List Char) : Except Stop Binary64 :=
  let text := String.ofList value
  if Numeral.isNumeral value then
    match Numeral.real? value with
    | none => .error (.failed (.unreadableNumber text))
    | some v => if v.isFinite then .ok v else .error (.rejected (.notANumber key owner text))
  else .error (.rejected (.notANumber key owner text))

/-- Cuts `key=value` at the first equals sign. -/
def splitAttribute? (token : List Char) : Option (List Char × List Char) :=
  match token.dropWhile (· != '=') with
  | [] => none
  | _ :: value =>
    let key := token.takeWhile (· != '=')
    if key.isEmpty then none else some (key, value)

/-- Applies one attribute. Containers take no icon. -/
def Attributes.apply (owner : String) (isContainer : Bool) (a : Attributes) (token : List Char) :
    Except Stop Attributes :=
  match splitAttribute? token with
  | none => .error (.rejected (.malformedAttribute (String.ofList token) owner))
  | some (key, value) =>
    let key := String.ofList key
    if value.contains '"' then .error (.rejected (.quotedAttribute key owner))
    else match Key.ofText key with
      | .side s =>
        if value.isEmpty then .ok a
        else (readCoordinate key owner value).map fun v => { a with frame := a.frame.set s v }
      | .icon => .ok (if isContainer then a else { a with icon := nonempty? value })
      | .parent =>
        if value.isEmpty || isIdentifier value then .ok { a with parent := nonempty? value }
        else .error (.rejected (.invalidParent (String.ofList value) owner))
      | .other => .ok a

/-- Applies all attributes and stops at the first that is refused. -/
def Attributes.applyAll (owner : String) (isContainer : Bool) :
    Attributes → List (List Char) → Except Stop Attributes
  | a, [] => .ok a
  | a, token :: tokens =>
    match a.apply owner isContainer token with
    | .ok a => a.applyAll owner isContainer tokens
    | .error e => .error e

/-- Characters before the colon or a stray quote. -/
def isBeforeColon (c : Char) : Bool :=
  c != ':' && c != '"'

/-- The identifier, the label, and what follows the label. -/
def readHead (keyword : String) (rest : List Char) :
    Except Fault (List Char × List Char × List Char) :=
  let id := trim (rest.takeWhile isBeforeColon)
  let name := String.ofList id
  if id.isEmpty then .error (.missingIdentifier keyword)
  else if !isIdentifier id then .error (.invalidIdentifier name)
  else match rest.dropWhile isBeforeColon with
    | ':' :: more =>
      match trimLeft more with
      | '"' :: body =>
        match closeQuote? body with
        | some (label, tail) => .ok (id, label, tail)
        | none => .error (.unterminatedLabel name)
      | _ => .error (.missingLabel name)
    | _ => .error (.missingColon name)

/-- Reads a declaration; the first word is its keyword, whatever it is. -/
def Declaration.read (line : Line) : Except Stop Declaration :=
  match splitWord? line.text with
  | none => .error (.failed .noKeyword)
  | some (word, rest) =>
    let keyword := String.ofList word
    match readHead keyword (trim rest) with
    | .error fault => .error (.rejected fault)
    | .ok (id, label, tail) =>
      let id := String.ofList id
      let isContainer := keyword == "container"
      let (body, opens) := splitOpening tail
      if opens && !isContainer then .error (.rejected (.nodeOpensBlock id))
      else
        match Attributes.applyAll id isContainer {} (words body) with
        | .error e => .error e
        | .ok a =>
          .ok { a with
            keyword := keyword
            id := id
            label := String.ofList label
            line := line.number
            opensBlock := opens }

/-- Reading a coordinate never fails. -/
theorem readCoordinate_ne_failed (key owner : String) (value : List Char) (f : Failure) :
    readCoordinate key owner value ≠ .error (.failed f) := by
  unfold readCoordinate
  dsimp only
  split
  · rename_i h
    obtain ⟨v, hv⟩ := Numeral.real?_of_isNumeral h
    rw [hv]
    dsimp only
    split <;> simp
  · simp

theorem Attributes.apply_ne_failed (owner : String) (b : Bool) (a : Attributes)
    (token : List Char) (f : Failure) : a.apply owner b token ≠ .error (.failed f) := by
  unfold Attributes.apply
  split
  · simp
  · rename_i key value _
    dsimp only
    split
    · simp
    · split
      · split
        · simp
        · have h := readCoordinate_ne_failed (String.ofList key) owner value f
          cases hr : readCoordinate (String.ofList key) owner value with
          | ok v => simp [Except.map]
          | error e => 
            rw [hr] at h
            simpa [Except.map] using h
      · simp
      · split <;> simp
      · simp

theorem Attributes.applyAll_ne_failed (owner : String) (b : Bool) (tokens : List (List Char))
    (a : Attributes) (f : Failure) : a.applyAll owner b tokens ≠ .error (.failed f) := by
  induction tokens generalizing a with
  | nil => simp [applyAll]
  | cons token tokens ih =>
    unfold applyAll
    split
    · exact ih _
    · rename_i e he
      intro h
      cases h
      exact apply_ne_failed owner b a token f he

/-- A declaration line that has a first word is read or rejected. -/
theorem Declaration.read_ne_failed {line : Line} (h : splitWord? line.text ≠ none) (f : Failure) :
    Declaration.read line ≠ .error (.failed f) := by
  unfold Declaration.read
  split
  · contradiction
  · dsimp only
    split
    · simp
    · split
      · simp
      · split
        · rename_i e he
          intro h
          cases h
          exact Attributes.applyAll_ne_failed _ _ _ _ f he
        · simp

end ArchDiagram.Source
