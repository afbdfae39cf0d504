import ArchDiagram.Number.Decimal
import ArchDiagram.Text.Blank
import ArchDiagram.Text.Digit
import ArchDiagram.Text.Run

/-!
Numbers written as text. Coordinates in a description have a narrow form, `isNumeral`. The reader
`number?` takes more, an exponent and infinities, and `real?` also blanks around and underscores
between digits; `whole` reads integers.
-/

namespace ArchDiagram.Numeral

open Text

/-- Splits off an optional sign; `true` stands for minus. -/
def splitSign : List Char → Bool × List Char
  | '-' :: cs => (true, cs)
  | '+' :: cs => (false, cs)
  | cs => (false, cs)

/-- An optional sign and digits with at most one point among or around them. -/
def isNumeral (cs : List Char) : Bool :=
  let body := (splitSign cs).2
  let whole := body.takeWhile isDigit
  match body.dropWhile isDigit with
  | [] => !whole.isEmpty
  | '.' :: fraction => fraction.all isDigit && !(whole.isEmpty && fraction.isEmpty)
  | _ => false

/-- The number that a run of digits denotes. -/
def value (ds : List Char) : Nat :=
  ds.foldl (fun n c => 10 * n + (digitValue? c).getD 0) 0

/-- Removes underscores that stand between two digits and refuses any other. -/
def dropSeparators : Bool → List Char → Option (List Char)
  | _, [] => some []
  | afterDigit, c :: cs =>
    if c = '_' then
      if afterDigit && cs.head?.any isDigit then dropSeparators false cs else none
    else (dropSeparators (isDigit c) cs).map (c :: ·)

/-- An exponent: an optional sign and at least one digit. -/
def exponent? (cs : List Char) : Option Int :=
  let (negative, ds) := splitSign cs
  if ds.isEmpty || !ds.all isDigit then none
  else some (if negative then -(value ds : Int) else value ds)

/-- Digits with an optional point and an optional exponent. -/
def decimal? (cs : List Char) : Option Decimal :=
  let whole := cs.takeWhile isDigit
  let rest := cs.dropWhile isDigit
  let (fraction, rest) := match rest with
    | '.' :: r => (r.takeWhile isDigit, r.dropWhile isDigit)
    | r => ([], r)
  let scaled (e : Int) : Decimal := ⟨value (whole ++ fraction), e - fraction.length⟩
  if whole.isEmpty && fraction.isEmpty then none
  else match rest with
    | [] => some (scaled 0)
    | c :: r => if c = 'e' || c = 'E' then (exponent? r).map scaled else none

/-- Blanks that may surround a number: all but the four information separators. -/
def isMargin (c : Char) : Bool :=
  isBlank c && !(0x1C ≤ c.toNat && c.toNat ≤ 0x1F)

def trimMargin (cs : List Char) : List Char :=
  ((cs.dropWhile isMargin).reverse.dropWhile isMargin).reverse

/-- The double-precision number nearest to a written number, which is a decimal or the name of a
value that no decimal has. -/
def number? (cs : List Char) : Option Binary64 :=
  let (negative, body) := splitSign cs
  let name := String.ofList (body.map Char.toLower)
  if name = "inf" || name = "infinity" then some (.infinite negative)
  else if name = "nan" then some .nan
  else (decimal? body).map (·.toBinary64 negative)

/-- A number with blanks around it and underscores between its digits. -/
def real? (cs : List Char) : Option Binary64 :=
  (dropSeparators false (trimMargin cs)).bind number?

inductive WholeFault where
  | malformed
  | tooLong (digits : Nat)

/-- The most digits of an integer that is read. -/
def maxDigits : Nat := 4300

/-- An integer: an optional sign and digits with single underscores between them. The number of
digits is checked before what follows them. -/
def whole (cs : List Char) : Except WholeFault Int :=
  let (negative, body) := splitSign (trimMargin cs)
  let run := body.takeWhile fun c => isDigit c || c == '_'
  match dropSeparators false run with
  | none | some [] => .error .malformed
  | some ds =>
    if maxDigits < ds.length then .error (.tooLong ds.length)
    else if body.dropWhile (fun c => isDigit c || c == '_') ≠ [] then .error .malformed
    else .ok (if negative then -(value ds : Int) else value ds)

theorem mem_of_isNumeral {cs : List Char} (h : isNumeral cs = true) {c : Char} (hc : c ∈ cs) :
    isDigit c = true ∨ c = '.' ∨ c = '+' ∨ c = '-' := by
  have hb : ∀ c ∈ (splitSign cs).2, isDigit c = true ∨ c = '.' := by
    intro c hc
    unfold isNumeral at h
    rw [← List.takeWhile_append_dropWhile (p := isDigit) (l := (splitSign cs).2)] at hc
    rcases List.mem_append.mp hc with hc | hc
    · exact .inl (List.all_eq_true.mp List.all_takeWhile c hc)
    · dsimp only at h
      split at h
      · simp_all
      · rename_i fraction hd
        rw [hd] at hc
        rcases List.mem_cons.mp hc with rfl | hc
        · exact .inr rfl
        · simp only [Bool.and_eq_true, List.all_eq_true] at h
          exact .inl (h.1 c hc)
      · simp at h
  unfold splitSign at hb
  split at hb <;> grind

theorem trimMargin_of_isNumeral {cs : List Char} (h : isNumeral cs = true) :
    trimMargin cs = cs := by
  have hm : ∀ c ∈ cs, isMargin c = false := by
    intro c hc
    have hb : isBlank c = false := by
      rcases mem_of_isNumeral h hc with hd | rfl | rfl | rfl
      · exact (isDigit_apart hd).1
      · rfl
      · rfl
      · rfl
    simp [isMargin, hb]
  unfold trimMargin
  rw [dropWhile_of_head hm, dropWhile_of_head (by simpa using hm), List.reverse_reverse]

theorem dropSeparators_of_not_mem {cs : List Char} (h : '_' ∉ cs) (b : Bool) :
    dropSeparators b cs = some cs := by
  induction cs generalizing b with
  | nil => rfl
  | cons c cs ih =>
    simp only [List.mem_cons, not_or] at h
    simp [dropSeparators, Ne.symm h.1, ih h.2]

/-- A text of the narrow form is a decimal. -/
theorem decimal?_of_isNumeral {cs : List Char} (h : isNumeral cs = true) :
    ∃ d, decimal? (splitSign cs).2 = some d := by
  unfold isNumeral at h
  unfold decimal?
  dsimp only at h ⊢
  split at h
  · rename_i hd
    simp only [hd]
    rw [if_neg (by simpa using h)]
    exact ⟨_, rfl⟩
  · rename_i fraction hd
    simp only [Bool.and_eq_true] at h
    simp only [hd, takeWhile_of_all h.1, dropWhile_of_all h.1]
    rw [if_neg (by simpa [Decidable.imp_iff_not_or] using h.2)]
    exact ⟨_, rfl⟩
  · simp at h

theorem number?_of_isNumeral {cs : List Char} (h : isNumeral cs = true) :
    ∃ v, number? cs = some v := by
  obtain ⟨d, hd⟩ := decimal?_of_isNumeral h
  unfold number?
  dsimp only
  split
  · exact ⟨_, rfl⟩
  · split
    · exact ⟨_, rfl⟩
    · simp [hd]

/-- The narrow form has neither blanks nor underscores. -/
theorem real?_eq_number? {cs : List Char} (h : isNumeral cs = true) : real? cs = number? cs := by
  have hu : '_' ∉ cs := by
    intro hm
    rcases mem_of_isNumeral h hm with hd | hd | hd | hd
    · exact (isDigit_apart hd).2.1 rfl
    all_goals exact absurd hd (by decide)
  rw [real?, trimMargin_of_isNumeral h, dropSeparators_of_not_mem hu]
  rfl

/-- Every text of the narrow form can be read. -/
theorem real?_of_isNumeral {cs : List Char} (h : isNumeral cs = true) :
    ∃ v, real? cs = some v := by
  rw [real?_eq_number? h]
  exact number?_of_isNumeral h

end ArchDiagram.Numeral
