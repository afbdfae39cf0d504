import ArchDiagram.Proofs.D2Statements
import ArchDiagram.Proofs.MermaidDrawing

/-!
Delimiters of exported text. A text that is put in quotes is left at the quote behind it and at no
other, and can be read back, so different texts and different identifiers are written differently. A
label that is put between bars holds neither a bar nor a line feed; it is in a normal form, which is
its words with single spaces between them.
-/

namespace ArchDiagram.Render

open Text Source

namespace D2

/-- The position of the quote that closes a quoted text, seen from inside it. -/
def closingQuote? : Quoting → List Char → Option Nat
  | _, [] => none
  | q, c :: cs =>
    if q.next c = .outside then some 0 else (closingQuote? (q.next c) cs).map (· + 1)

/-- A text without the backslashes that protect its characters. -/
def unescape : List Char → List Char
  | [] => []
  | ['\\'] => ['\\']
  | '\\' :: c :: cs => c :: unescape cs
  | c :: cs => c :: unescape cs

/-- A text with `new` in the place of every `old`. -/
def replaceChar (old : Char) (new cs : List Char) : List Char :=
  cs.flatMap fun c => if c = old then new else [c]

/-- Escaping is doubling the backslashes and then putting one before every quote. -/
theorem escape_eq_replaceChar (cs : List Char) :
    escape cs = replaceChar '"' ['\\', '"'] (replaceChar '\\' ['\\', '\\'] cs) := by
  unfold escape replaceChar
  rw [List.flatMap_assoc]
  refine List.flatMap_congr fun c _ => ?_
  by_cases hslash : c = '\\'
  · simp [escapeChar, hslash]
  · by_cases hquote : c = '"' <;> simp [escapeChar, hslash, hquote]

theorem escape_cons (c : Char) (cs : List Char) : escape (c :: cs) = escapeChar c ++ escape cs :=
  List.flatMap_cons

/-- The quote behind an escaped text is the first that no backslash protects. -/
theorem closingQuote?_escape (cs rest : List Char) :
    closingQuote? .inside (escape cs ++ '"' :: rest) = some (escape cs).length := by
  induction cs with
  | nil => rfl
  | cons c cs ih =>
    rw [escape_cons, List.append_assoc, List.length_append]
    rcases escapeChar_cases c with hc | ⟨hc, hnext⟩ <;> rw [hc]
    · have hslash : closingQuote? .inside (['\\', c] ++ (escape cs ++ '"' :: rest)) =
          ((closingQuote? .inside (escape cs ++ '"' :: rest)).map (· + 1)).map (· + 1) := rfl
      rw [hslash, ih, Option.map_some, Option.map_some, List.length_cons, List.length_singleton]
      exact congrArg some (by omega)
    · rw [List.singleton_append, closingQuote?, hnext, if_neg (by decide), ih]
      simp [Nat.add_comm]

theorem unescape_cons {c : Char} (hc : c ≠ '\\') (cs : List Char) :
    unescape (c :: cs) = c :: unescape cs := by
  conv_lhs => unfold unescape
  split <;> simp_all

theorem unescape_escape (cs : List Char) : unescape (escape cs) = cs := by
  induction cs with
  | nil => rfl
  | cons c cs ih =>
    rw [escape_cons]
    unfold escapeChar
    split
    · exact congrArg _ ih
    · rename_i hc
      have hslash : c ≠ '\\' := fun heq => hc (by simp [heq])
      rw [List.singleton_append, unescape_cons hslash, ih]

theorem escape_injective : Function.Injective escape :=
  Function.LeftInverse.injective unescape_escape

/-- Different identifiers have different keys, whatever they are made of. -/
theorem injective_key : Function.Injective key := by
  -- a key without quotes around it does not begin with one
  have hbare {a b : String} (ha : isBareKey a.toList = true) : a.toList ≠ quoted b := by
    intro heq
    refine not_mem_identifier (isIdentifier_of_isBareKey ha) (m := '"') (by decide) ?_
    rw [heq]
    exact List.mem_cons_self
  intro a b h
  apply String.toList_inj.mp
  unfold key at h
  split at h <;> split at h
  · exact h
  · rename_i ha _
    exact absurd h (hbare ha)
  · rename_i hb
    exact absurd h.symm (hbare hb)
  · apply escape_injective
    exact List.append_cancel_right (List.cons.inj h).2

end D2

namespace Mermaid

/-- A label fit for a link: no character that ends it, and blanks only as single spaces between
words. -/
structure Tidy (cs : List Char) : Prop where
  unreserved : ∀ c ∈ ['|', '"', '#', ';', '\n'], c ∉ cs
  plain : ∀ c ∈ cs, isBlank c = true → c = ' '
  trimmed : Trimmed cs
  single : cs.IsChain fun a b => isBlank a = true → isBlank b = false

theorem mem_marks_iff {c : Char} :
    c ∈ ['|', '"', '#', ';', '\n'] ↔ isReserved c = true ∨ c = '\n' := by
  simp [isReserved, or_assoc]

theorem plain_squeeze (cs : List Char) : ∀ c ∈ squeeze cs, isBlank c = true → c = ' ' := by
  fun_induction squeeze cs with
  | case1 => simp
  | case2 c cs hc hnext ih => exact ih
  | case3 c cs hc hnext ih => exact List.forall_mem_cons.mpr ⟨fun _ => rfl, ih⟩
  | case4 c cs hc ih => exact List.forall_mem_cons.mpr ⟨fun hblank => absurd hblank hc, ih⟩

/-- A squeezed text begins with a blank only if the text does. -/
theorem head_squeeze {cs : List Char} (h : ∀ c ∈ cs.head?, isBlank c = false) :
    ∀ c ∈ (squeeze cs).head?, isBlank c = false := by
  cases cs with
  | nil => simp [squeeze]
  | cons c cs =>
    have hc : isBlank c = false := h c rfl
    simp [squeeze, hc]

/-- A squeezed text has no two blanks in a row. -/
theorem single_squeeze (cs : List Char) :
    (squeeze cs).IsChain fun a b => isBlank a = true → isBlank b = false := by
  fun_induction squeeze cs with
  | case1 => exact .nil
  | case2 c cs hc hnext ih => exact ih
  | case3 c cs hc hnext ih =>
    have hhead : ∀ d ∈ cs.head?, isBlank d = false := by
      simpa [Option.any_eq_true] using hnext
    exact ih.cons fun d hd _ => head_squeeze hhead d hd
  | case4 c cs hc ih => exact ih.cons fun _ _ hblank => absurd hblank hc

/-- A text with blanks only as single spaces is not squeezed any further. -/
theorem squeeze_of_single {cs : List Char} (hplain : ∀ c ∈ cs, isBlank c = true → c = ' ')
    (hsingle : cs.IsChain fun a b => isBlank a = true → isBlank b = false) : squeeze cs = cs := by
  induction cs with
  | nil => rfl
  | cons c cs ih =>
    obtain ⟨hc, hcs⟩ := List.forall_mem_cons.mp hplain
    obtain ⟨hnext, hrest⟩ := List.isChain_cons.mp hsingle
    rw [squeeze, ih hcs hrest]
    split
    · rename_i hblank
      have hhead : cs.head?.any isBlank = false := by
        rw [Option.any_eq_false]
        exact fun d hd => hnext d hd hblank
      rw [hhead, if_neg Bool.false_ne_true, hc hblank]
    · rfl

theorem tidy_cleanLabel (label : List Char) : Tidy (cleanLabel label) where
  unreserved := by
    intro c hmark hc
    rcases mem_marks_iff.mp hmark with hreserved | rfl
    · rcases mem_cleanLabel hc with rfl | ⟨-, hfree⟩
      · exact absurd hreserved (by decide)
      · exact absurd (hreserved.symm.trans hfree) (by decide)
    · -- a line feed is a blank
      exact absurd (plain_squeeze _ _ (mem_of_mem_trim hc) (by decide)) (by decide)
  plain := fun c hc => plain_squeeze _ c (mem_of_mem_trim hc)
  trimmed := trimmed_trim _
  single := by
    obtain ⟨a, b, -, -, hcs⟩ := exists_margins (squeeze (label.filter (!isReserved ·)))
    have hsingle := single_squeeze (label.filter (!isReserved ·))
    rw [hcs] at hsingle
    exact hsingle.left_of_append.right_of_append

/-- Cleaning changes nothing exactly when a label is tidy. -/
theorem cleanLabel_eq_self_iff {label : List Char} : cleanLabel label = label ↔ Tidy label := by
  constructor
  · intro h
    exact h ▸ tidy_cleanLabel label
  · intro h
    have hfilter : label.filter (!isReserved ·) = label := by
      rw [List.filter_eq_self]
      intro c hc
      rw [Bool.not_eq_true', Bool.eq_false_iff]
      exact fun hreserved => h.unreserved c (mem_marks_iff.mpr (.inl hreserved)) hc
    rw [cleanLabel, hfilter, squeeze_of_single h.plain h.single, h.trimmed.trim_eq]

end Mermaid

/-- Escaping is two replacements, one after the other; the quote behind an escaped text is the first
that no backslash protects, and without the backslashes the text is as before, so different texts
are escaped differently and different identifiers have different keys. Cleaned labels are tidy, and
tidy labels are those that cleaning does not change. -/
theorem exported_text_delimited :
    (∀ t, D2.escape t = D2.replaceChar '"' ['\\', '"'] (D2.replaceChar '\\' ['\\', '\\'] t)) ∧
      (∀ t u, D2.closingQuote? .inside (D2.escape t ++ '"' :: u) = some (D2.escape t).length) ∧
      (∀ t, D2.unescape (D2.escape t) = t) ∧ Function.Injective D2.escape ∧
      Function.Injective D2.key ∧ (∀ label, Mermaid.Tidy (Mermaid.cleanLabel label)) ∧
      (∀ label, Mermaid.cleanLabel label = label ↔ Mermaid.Tidy label) ∧
      ∀ label, Mermaid.cleanLabel (Mermaid.cleanLabel label) = Mermaid.cleanLabel label :=
  ⟨D2.escape_eq_replaceChar, D2.closingQuote?_escape, D2.unescape_escape, D2.escape_injective,
    D2.injective_key, Mermaid.tidy_cleanLabel, fun _ => Mermaid.cleanLabel_eq_self_iff,
    fun label => Mermaid.cleanLabel_eq_self_iff.mpr (Mermaid.tidy_cleanLabel label)⟩

/-- A line feed and reserved marks between words become one space. -/
example : Mermaid.cleanLabel " x |\n;y\t\" z# ".toList = "x y z".toList := by
  decide

end ArchDiagram.Render
