/-!
Texts made of pieces with a separator between them: cutting at a character and joining again.
-/

namespace ArchDiagram.Text

/-- The pieces between the occurrences of `sep`; there is always at least one. -/
def splitOn (sep : Char) : List Char → List (List Char)
  | [] => [[]]
  | c :: cs =>
    if c = sep then [] :: splitOn sep cs
    else match splitOn sep cs with
      | [] => [[c]]
      | p :: ps => (c :: p) :: ps

def joinWith (sep : List Char) : List (List Char) → List Char
  | [] => []
  | [p] => p
  | p :: q :: ps => p ++ sep ++ joinWith sep (q :: ps)

/-- The lines of a text; a final line break opens one more, empty line. -/
def lines (cs : List Char) : List (List Char) :=
  splitOn '\n' cs

def unlines (ls : List (List Char)) : List Char :=
  joinWith ['\n'] ls

theorem splitOn_ne_nil (sep : Char) (cs : List Char) : splitOn sep cs ≠ [] := by
  cases cs with
  | nil => simp [splitOn]
  | cons c cs =>
    unfold splitOn
    split
    · simp
    · split <;> simp

end ArchDiagram.Text
