/-!
Blank characters, and the operations on texts that depend on them: trimming and cutting into words.
A text under inspection is a list of characters, so that each operation is a recursion on the list.
-/

namespace ArchDiagram.Text

/-- The characters that separate words. -/
def isBlank (c : Char) : Bool :=
  let n := c.toNat
  (9 ≤ n && n ≤ 13) || (0x1C ≤ n && n ≤ 0x20) || n == 0x85 || n == 0xA0 || n == 0x1680 ||
    (0x2000 ≤ n && n ≤ 0x200A) || n == 0x2028 || n == 0x2029 || n == 0x202F || n == 0x205F ||
    n == 0x3000

def trimLeft (cs : List Char) : List Char :=
  cs.dropWhile isBlank

def trimRight (cs : List Char) : List Char :=
  (cs.reverse.dropWhile isBlank).reverse

def trim (cs : List Char) : List Char :=
  trimRight (trimLeft cs)

/-- The first word and what follows it, less the blanks between them. -/
def splitWord? (cs : List Char) : Option (List Char × List Char) :=
  match trimLeft cs with
  | [] => none
  | rest => some (rest.takeWhile (!isBlank ·), trimLeft (rest.dropWhile (!isBlank ·)))

/-- The first word, empty when there is none. -/
def firstWord (cs : List Char) : List Char :=
  match splitWord? cs with
  | none => []
  | some (w, _) => w

/-- The maximal runs of characters that are not blank. -/
def words : List Char → List (List Char)
  | [] => []
  | c :: cs =>
    if isBlank c then words cs
    else if cs.head?.all isBlank then [c] :: words cs
    else match words cs with
      | [] => [[c]]
      | w :: ws => (c :: w) :: ws

/-- One plain space for every run of blanks. -/
def squeeze : List Char → List Char
  | [] => []
  | c :: cs =>
    if isBlank c then
      if cs.head?.any isBlank then squeeze cs else ' ' :: squeeze cs
    else c :: squeeze cs

theorem trimLeft_of_not_blank {c : Char} (h : isBlank c = false) (cs : List Char) :
    trimLeft (c :: cs) = c :: cs := by
  simp [trimLeft, h]

end ArchDiagram.Text
