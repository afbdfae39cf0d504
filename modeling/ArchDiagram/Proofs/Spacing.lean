import ArchDiagram.Proofs.Diagnostics
import ArchDiagram.Proofs.Inert
import ArchDiagram.Proofs.Renumbering
import Mathlib.Data.List.Forall2

/-!
Spacing of a text. Blank lines and comments between the lines, blanks around a line and the way
lines end carry no meaning: a text that differs from another in these only has the same document,
or diagnostics at the lines that correspond.
-/

namespace ArchDiagram.Source

open Text

/-- A line without a statement: blanks only, or a comment after blanks. -/
def IsFiller (raw : List Char) : Prop :=
  (∀ c ∈ raw, isBlank c = true) ∨ "//".toList <+: trimLeft raw

/-- Lines `ls'` that are the lines `ls` in their order, each with blanks around it and possibly with
a carriage return at its end, and fillers between them. Positions count from zero, and `ρ` gives the
new position of a line. -/
structure Respaced (ρ : Nat → Nat) (ls ls' : List (List Char)) : Prop where
  upward : ∀ i j, i < j → j < ls.length → ρ i < ρ j
  kept : ∀ (i : Nat) (h : i < ls.length), ∃ left right ending : List Char,
    (∀ c ∈ left, isBlank c = true) ∧ (∀ c ∈ right, isBlank c = true) ∧
      (ending = [] ∨ ending = ['\r']) ∧ ls'[ρ i]? = some (left ++ ls[i] ++ right ++ ending)
  added : ∀ (j : Nat) (h : j < ls'.length), (∀ i < ls.length, ρ i ≠ j) → IsFiller ls'[j]

/-- The numbers of lines start at one. -/
def renumbering (ρ : Nat → Nat) (n : Int) : Int :=
  ρ (n - 1).toNat + 1

theorem renumbering_succ (ρ : Nat → Nat) (i : Nat) : renumbering ρ (i + 1) = ρ i + 1 := by
  simp [renumbering]

theorem isStatement_renumber (f : Int → Int) (l : Line) :
    (l.renumber f).isStatement = l.isStatement :=
  rfl

/-- A filler holds no statement. -/
theorem isStatement_of_isFiller {raw : List Char} (h : IsFiller raw) (n : Int) :
    (Line.ofText n raw).isStatement = false := by
  rcases h with h | ⟨rest, h⟩
  · have hblank : (Line.ofText n raw).kind = .blank := by
      rw [Line.kind_ofText, (trim_eq_nil_iff raw).mpr h]
      rfl
    simp [Line.isStatement, hblank]
  · -- the two slashes stay at the start when the right end is trimmed
    have htrim : trim raw = "//".toList ++ trimRight rest := by
      unfold trim
      rw [← h]
      apply trimRight_append
      rintro c ⟨⟩
      rfl
    have hcomment : (Line.ofText n raw).kind = .comment := by
      rw [Line.kind_ofText, htrim]
      rfl
    simp [Line.isStatement, hcomment]

theorem exists_index_of_mem_sourceLines {source : String} {l : Line}
    (h : l ∈ sourceLines source) :
    ∃ i : Nat, i < (lines source.toList).length ∧ l.number = i + 1 := by
  obtain ⟨i, hi, rfl⟩ := List.mem_mapIdx.mp h
  exact ⟨i, hi, rfl⟩

namespace Respaced

variable {ρ : Nat → Nat} {source source' : String}

/-- A line and the line that it becomes differ in their numbers only. -/
theorem line_eq (h : Respaced ρ (lines source.toList) (lines source'.toList)) {i : Nat}
    (hi : i < (lines source.toList).length) :
    ∃ hj : ρ i < (lines source'.toList).length,
      Line.ofText (ρ i + 1) (lines source'.toList)[ρ i] =
        (Line.ofText (i + 1) (lines source.toList)[i]).renumber (renumbering ρ) := by
  obtain ⟨left, right, ending, hleft, hright, hending, hline⟩ := h.kept i hi
  obtain ⟨hj, hget⟩ := List.getElem?_eq_some_iff.mp hline
  refine ⟨hj, ?_⟩
  have hmargin : ∀ c ∈ right ++ ending, isBlank c = true := by
    intro c hc
    rcases List.mem_append.mp hc with hc | hc
    · exact hright c hc
    · rcases hending with rfl | rfl
      · cases hc
      · rw [List.mem_singleton.mp hc]
        rfl
  have htrim : trim (lines source'.toList)[ρ i] = trim (lines source.toList)[i] := by
    rw [hget, List.append_assoc (left ++ _)]
    exact trim_append_margins hleft hmargin _
  simp only [Line.ofText, Line.renumber, renumbering_succ, htrim]

/-- Lines keep their order. -/
theorem renumbering_lt_iff (h : Respaced ρ (lines source.toList) (lines source'.toList))
    {l k : Line} (hl : l ∈ sourceLines source) (hk : k ∈ sourceLines source) :
    renumbering ρ l.number < renumbering ρ k.number ↔ l.number < k.number := by
  obtain ⟨i, hi, hli⟩ := exists_index_of_mem_sourceLines hl
  obtain ⟨j, hj, hkj⟩ := exists_index_of_mem_sourceLines hk
  rw [hli, hkj, renumbering_succ, renumbering_succ]
  rcases Nat.lt_trichotomy i j with hij | rfl | hji
  · have hlt := h.upward i j hij hj
    omega
  · omega
  · have hlt := h.upward j i hji hi
    omega

/-- The statements of the new text are those of the old one with new numbers. Both lists are in the
order of their numbers, so it is enough that they have the same members. -/
theorem filter_sourceLines (h : Respaced ρ (lines source.toList) (lines source'.toList)) :
    (sourceLines source').filter Line.isStatement =
      ((sourceLines source).filter Line.isStatement).map (Line.renumber (renumbering ρ)) := by
  have hsorted' := (pairwise_number_sourceLines source').filter Line.isStatement
  have hsorted : (((sourceLines source).filter Line.isStatement).map
      (Line.renumber (renumbering ρ))).Pairwise fun l k => l.number < k.number := by
    rw [List.pairwise_map]
    apply ((pairwise_number_sourceLines source).filter Line.isStatement).imp_of_mem
    intro l k hl hk hlt
    exact (h.renumbering_lt_iff (List.mem_filter.mp hl).1 (List.mem_filter.mp hk).1).mpr hlt
  have hmem (l : Line) : l ∈ (sourceLines source').filter Line.isStatement ↔
      l ∈ ((sourceLines source).filter Line.isStatement).map (Line.renumber (renumbering ρ)) := by
    constructor
    · intro hl
      obtain ⟨hl, hstatement⟩ := List.mem_filter.mp hl
      obtain ⟨j, hj, rfl⟩ := List.mem_mapIdx.mp hl
      -- a line that comes from nowhere is a filler
      by_cases hold : ∃ i < (lines source.toList).length, ρ i = j
      · obtain ⟨i, hi, rfl⟩ := hold
        obtain ⟨hj', heq⟩ := h.line_eq hi
        rw [heq, isStatement_renumber] at hstatement
        rw [heq]
        refine List.mem_map.mpr ⟨_, List.mem_filter.mpr ⟨?_, hstatement⟩, rfl⟩
        exact List.mem_mapIdx.mpr ⟨i, hi, rfl⟩
      · push Not at hold
        rw [isStatement_of_isFiller (h.added j hj hold)] at hstatement
        cases hstatement
    · intro hl
      obtain ⟨k, hk, rfl⟩ := List.mem_map.mp hl
      obtain ⟨hk, hstatement⟩ := List.mem_filter.mp hk
      obtain ⟨i, hi, rfl⟩ := List.mem_mapIdx.mp hk
      obtain ⟨hj, heq⟩ := h.line_eq hi
      rw [← heq]
      refine List.mem_filter.mpr ⟨List.mem_mapIdx.mpr ⟨ρ i, hj, rfl⟩, ?_⟩
      rw [heq, isStatement_renumber, hstatement]
  have hne {l k : Line} (hlt : l.number < k.number) : l ≠ k := by
    rintro rfl
    exact Int.lt_irrefl _ hlt
  have hperm := (List.perm_ext_iff_of_nodup (hsorted'.imp hne) (hsorted.imp hne)).mpr hmem
  apply hperm.eq_of_pairwise ?_ hsorted' hsorted
  intro l k _ _ hlt hgt
  omega

end Respaced

namespace History

theorem inert_of_not_isStatement {l : Line} (h : l.isStatement = false) : l.Inert := by
  have hk : l.kind = .blank ∨ l.kind = .comment := by
    cases hl : l.kind <;> simp [Line.isStatement, hl] at h ⊢
  apply Line.inert_of_kind <;> rcases hk with hk | hk <;> simp [hk]

theorem silent_of_not_isStatement {l : Line} (h : l.isStatement = false) :
    l.link? = none ∧ ∀ before, fault? before l = none := by
  cases hl : l.kind <;> simp [Line.isStatement, hl] at h
  · simp [Line.link?, fault?, hl]
  · simp [Line.link?, fault?, hl]

/-- A scan may pass over the lines without statements. -/
theorem scanner_filter (h : List Line) :
    scanner h = { scanner (h.filter Line.isStatement) with
      lineCount := (h.head?.map (·.number)).getD 0 } := by
  have hinert : ∀ l : Line, l.isStatement = false → l.Inert := fun _ => inert_of_not_isStatement
  simp only [scanner]
  rw [kept_filter hinert, openBlocks_filter hinert, title?_filter hinert,
    links_filter fun l hl => (silent_of_not_isStatement hl).1,
    diagnostics_filter hinert fun l before hl => (silent_of_not_isStatement hl).2 before]

end History

/-- Nothing that is found or kept depends on how many lines there are. -/
theorem Scanner.found_lineCount (s : Scanner) (n : Int) :
    { s with lineCount := n }.found = s.found :=
  rfl

theorem Scanner.document_lineCount (s : Scanner) (n : Int) (defaultTitle : String) :
    { s with lineCount := n }.document defaultTitle = s.document defaultTitle :=
  rfl

/-- What is found in a respaced text is found at the lines that correspond, and its document is the
same. -/
theorem Respaced.scanned_eq {ρ : Nat → Nat} {source source' : String}
    (h : Respaced ρ (lines source.toList) (lines source'.toList)) :
    (scanned source').found.map (·.line) =
        ((scanned source).found.map (·.line)).map (renumbering ρ) ∧
      ∀ defaultTitle, (scanned source').document defaultTitle =
        (scanned source).document defaultTitle := by
  let k := (sourceLines source).reverse.filter Line.isStatement
  have hold : scanned source = { History.scanner k with
      lineCount := ((sourceLines source).reverse.head?.map (·.number)).getD 0 } := by
    rw [History.scanned_eq_scanner, History.scanner_filter]
  have hnew : scanned source' = { History.scanner (k.map (Line.renumber (renumbering ρ))) with
      lineCount := ((sourceLines source').reverse.head?.map (·.number)).getD 0 } := by
    rw [History.scanned_eq_scanner, History.scanner_filter, List.filter_reverse,
      h.filter_sourceLines, ← List.map_reverse, ← List.filter_reverse]
  have hlines := History.map_line_close_renumber (renumbering ρ) k
  rw [Scanner.errors_close, Scanner.errors_close] at hlines
  constructor
  · rw [hold, hnew, Scanner.found_lineCount, Scanner.found_lineCount]
    exact hlines
  · intro defaultTitle
    rw [hold, hnew, Scanner.document_lineCount, Scanner.document_lineCount]
    exact History.document_renumber (renumbering ρ) defaultTitle k

/-- The lines of sorted diagnostics are the sorted lines. -/
theorem map_line_mergeSort (es : List Diagnostic) :
    (es.mergeSort fun a b => a.line ≤ b.line).map (·.line) =
      (es.map (·.line)).mergeSort fun m n => m ≤ n :=
  List.map_mergeSort fun _ _ _ _ => rfl

/-- Diagnostics keep their order when lines do. -/
theorem Respaced.map_line_sorted {ρ : Nat → Nat} {source source' : String}
    (h : Respaced ρ (lines source.toList) (lines source'.toList)) :
    ((scanned source').found.mergeSort fun a b => a.line ≤ b.line).map (·.line) =
      (((scanned source).found.mergeSort fun a b => a.line ≤ b.line).map (·.line)).map
        (renumbering ρ) := by
  -- diagnostics stand at lines of the source, and their order is kept
  have hmono : ∀ m ∈ (scanned source).found.map (·.line), ∀ n ∈ (scanned source).found.map (·.line),
      decide (m ≤ n) = decide (renumbering ρ m ≤ renumbering ρ n) := by
    intro m hm n hn
    obtain ⟨e, he, rfl⟩ := List.mem_map.mp hm
    obtain ⟨f, hf, rfl⟩ := List.mem_map.mp hn
    obtain ⟨l, hl, hle, -⟩ := exists_statement_of_mem_found he
    obtain ⟨k, hk, hkf, -⟩ := exists_statement_of_mem_found hf
    have hiff := h.renumbering_lt_iff hk hl
    rw [hle, hkf] at hiff
    rw [decide_eq_decide]
    omega
  calc ((scanned source').found.mergeSort fun a b => a.line ≤ b.line).map (·.line)
      = ((scanned source').found.map (·.line)).mergeSort (fun m n => m ≤ n) :=
        map_line_mergeSort _
    _ = (((scanned source).found.map (·.line)).map (renumbering ρ)).mergeSort
          (fun m n => m ≤ n) := by rw [h.scanned_eq.1]
    _ = (((scanned source).found.map (·.line)).mergeSort fun m n => m ≤ n).map
          (renumbering ρ) := (List.map_mergeSort hmono).symm
    _ = (((scanned source).found.mergeSort fun a b => a.line ≤ b.line).map (·.line)).map
          (renumbering ρ) := by rw [map_line_mergeSort]

theorem parse_eq_outcome_found (defaultTitle source : String) :
    parse defaultTitle source =
      if (scanned source).found = [] then .success ((scanned source).document defaultTitle)
      else .invalid ((scanned source).found.mergeSort fun a b => a.line ≤ b.line) := by
  change (scanned source).close.outcome defaultTitle = _
  rw [Scanner.outcome, Scanner.sortedErrors, Scanner.errors_close]
  simp only [List.isEmpty_iff]
  rfl

/-- Spacing does not matter: a text and a respaced one have the same document, or as many
diagnostics, which stand at corresponding lines one by one. -/
theorem parse_of_respaced (defaultTitle : String) {ρ : Nat → Nat} {source source' : String}
    (h : Respaced ρ (lines source.toList) (lines source'.toList)) :
    (∃ d, parse defaultTitle source = .success d ∧ parse defaultTitle source' = .success d) ∨
      ∃ es es', parse defaultTitle source = .invalid es ∧
        parse defaultTitle source' = .invalid es' ∧
          List.Forall₂ (fun e e' : Diagnostic => ∃ i : Nat, i < (lines source.toList).length ∧
            e.line = i + 1 ∧ e'.line = ρ i + 1) es es' := by
  obtain ⟨hfound, hdocument⟩ := h.scanned_eq
  rw [parse_eq_outcome_found, parse_eq_outcome_found]
  by_cases hnil : (scanned source).found = []
  · have hnil' : (scanned source').found = [] := by simpa [hnil] using hfound
    rw [if_pos hnil, if_pos hnil', hdocument]
    exact .inl ⟨_, rfl, rfl⟩
  · have hnil' : (scanned source').found ≠ [] := by
      intro hn
      rw [hn, List.map_nil, eq_comm, List.map_map, List.map_eq_nil_iff] at hfound
      exact hnil hfound
    rw [if_neg hnil, if_neg hnil']
    refine .inr ⟨_, _, rfl, rfl, ?_⟩
    have hlines := h.map_line_sorted
    have hlength := congrArg List.length hlines
    simp only [List.length_map] at hlength
    rw [List.forall₂_iff_get]
    refine ⟨hlength.symm, fun n hn hn' => ?_⟩
    -- the diagnostic at each place stands at a line of the source
    have hmem := (List.mergeSort_perm (scanned source).found
      fun a b => a.line ≤ b.line).mem_iff.mp (List.getElem_mem hn)
    obtain ⟨l, hl, hline, -⟩ := exists_statement_of_mem_found hmem
    obtain ⟨i, hi, hnumber⟩ := exists_index_of_mem_sourceLines hl
    have hat := congrArg (fun ns => ns[n]?) hlines
    simp only [List.getElem?_map, List.getElem?_eq_getElem hn, List.getElem?_eq_getElem hn',
      Option.map_some, Option.some.injEq] at hat
    rw [← hline, hnumber, renumbering_succ] at hat
    exact ⟨i, hi, hline.symm.trans hnumber, hat⟩

/-- A rejected block after a comment and an empty line, with margins and carriage returns. -/
theorem parse_of_respaced_margins :
    Respaced (fun i => 2 * i + 1) (lines "node a: \"A\"\nnode b: \"B\" \x7b".toList)
        (lines "// c\r\n  node a: \"A\"\t\r\n\nnode b: \"B\" \x7b\r".toList) ∧
      ∃ es es', parse "Plan" "node a: \"A\"\nnode b: \"B\" \x7b" = .invalid es ∧
        parse "Plan" "// c\r\n  node a: \"A\"\t\r\n\nnode b: \"B\" \x7b\r" = .invalid es' ∧
          List.Forall₂ (fun e e' : Diagnostic => e'.line = 2 * e.line) es es' := by
  have hlines : lines "node a: \"A\"\nnode b: \"B\" \x7b".toList =
      ["node a: \"A\"".toList, "node b: \"B\" \x7b".toList] := by
    decide +kernel
  have hlines' : lines "// c\r\n  node a: \"A\"\t\r\n\nnode b: \"B\" \x7b\r".toList =
      ["// c\r".toList, "  node a: \"A\"\t\r".toList, [], "node b: \"B\" \x7b\r".toList] := by
    decide +kernel
  have hrespaced : Respaced (fun i => 2 * i + 1) (lines "node a: \"A\"\nnode b: \"B\" \x7b".toList)
      (lines "// c\r\n  node a: \"A\"\t\r\n\nnode b: \"B\" \x7b\r".toList) := by
    rw [hlines, hlines']
    refine ⟨fun i j hij _ => by omega, fun i hi => ?_, fun j hj hold => ?_⟩
    · match i, hi with
      | 0, _ =>
        exact ⟨[' ', ' '], ['\t'], ['\r'], forall_mem_of_all (by decide),
          forall_mem_of_all (by decide), .inr rfl, rfl⟩
      | 1, _ =>
        exact ⟨[], [], ['\r'], List.forall_mem_nil _, List.forall_mem_nil _, .inr rfl, rfl⟩
    · match j, hj with
      | 0, _ => exact .inr ⟨" c\r".toList, rfl⟩
      | 1, _ => exact absurd rfl (hold 0 (by decide))
      | 2, _ => exact .inl (by simp)
      | 3, _ => exact absurd rfl (hold 1 (by decide))
  have hread : (parse "Plan" "node a: \"A\"\nnode b: \"B\" \x7b").document?.isNone = true := by
    decide +kernel
  refine ⟨hrespaced, ?_⟩
  rcases parse_of_respaced "Plan" hrespaced with ⟨d, hd, -⟩ | ⟨es, es', hes, hes', hforall⟩
  · rw [hd] at hread
    cases hread
  · refine ⟨es, es', hes, hes', hforall.imp ?_⟩
    rintro e e' ⟨i, -, he, he'⟩
    omega

end ArchDiagram.Source
