import ArchDiagram.Source.Fault
import ArchDiagram.Source.Line

/-!
Titles: the word `title`, an optional colon, and one quoted text.
-/

namespace ArchDiagram.Source

open Text

/-- A title and the line that sets it. -/
structure Title where
  text : String
  line : Int
  deriving DecidableEq

/-- The text of a title line, which starts with the word `title`. -/
def readTitle (line : Line) : Except Fault String :=
  let rest := trimLeft (line.text.drop 5)
  let rest := match rest with
    | ':' :: more => trimLeft more
    | _ => rest
  match rest with
  | '"' :: body =>
    match closeQuote? body with
    | none => .error .unterminatedTitle
    | some (text, after) =>
      if (trim after).isEmpty then .ok (String.ofList text)
      else .error (.textAfterTitle (String.ofList (trim after)))
  | _ => .error .missingTitle

end ArchDiagram.Source
