import ArchDiagram.Number.Binary64

/-!
Plain data, the form in which documents and requests are exchanged. Whole numbers and other numbers
are kept apart, and the fields of a record keep their order.
-/

namespace ArchDiagram.Data

inductive Value where
  | null
  | bool (b : Bool)
  | int (i : Int)
  | real (v : Binary64)
  | text (s : String)
  | list (xs : List Value)
  | record (fields : List (String × Value))

/-- The field of a given name; of several the last. -/
def field? (fields : List (String × Value)) (name : String) : Option Value :=
  (fields.reverse.find? (·.1 == name)).map (·.2)

/-- Absent values become `null`. -/
def Value.optText : Option String → Value
  | some s => .text s
  | none => .null

end ArchDiagram.Data
