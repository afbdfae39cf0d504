import ArchDiagram.Text.Blank
import ArchDiagram.Text.Run
import ArchDiagram.Text.Separated

/-!
Trimming and cutting of texts. A trimmed text has no blank at either end; trimming takes off a blank
margin on each side and nothing else. Words joined by spaces and lines ended by line feeds are found
again by cutting.
-/

namespace ArchDiagram.Text

/-- A text with no blank at either end. -/
structure Trimmed (cs : List Char) : Prop where
  head : ∀ c ∈ cs.head?, isBlank c = false
  last : ∀ c ∈ cs.getLast?, isBlank c = false

theorem trimLeft_of_head {cs : List Char} (h : ∀ c ∈ cs.head?, isBlank c = false) :
    trimLeft cs = cs := by
  cases cs with
  | nil => rfl
  | cons c cs => exact trimLeft_of_not_blank (h c rfl) cs

theorem trimRight_of_last {cs : List Char} (h : ∀ c ∈ cs.getLast?, isBlank c = false) :
    trimRight cs = cs := by
  have hr : trimLeft cs.reverse = cs.reverse := by
    apply trimLeft_of_head
    simpa only [List.head?_reverse] using h
  unfold trimRight
  rw [show cs.reverse.dropWhile isBlank = cs.reverse from hr, List.reverse_reverse]

theorem Trimmed.trim_eq {cs : List Char} (h : Trimmed cs) : trim cs = cs := by
  unfold trim
  rw [trimLeft_of_head h.head, trimRight_of_last h.last]

theorem head_trimLeft (cs : List Char) : ∀ c ∈ (trimLeft cs).head?, isBlank c = false := by
  intro c hc
  have h := List.head?_dropWhile_not isBlank cs
  unfold trimLeft at hc
  rw [Option.mem_def] at hc
  simpa [hc] using h

theorem last_trimRight (cs : List Char) : ∀ c ∈ (trimRight cs).getLast?, isBlank c = false := by
  intro c hc
  unfold trimRight at hc
  rw [List.getLast?_reverse] at hc
  exact head_trimLeft cs.reverse c hc

theorem mem_of_mem_trimLeft {cs : List Char} {c : Char} (h : c ∈ trimLeft cs) : c ∈ cs :=
  (List.dropWhile_sublist _).subset h

/-- What trimming on the left takes off is a blank margin. -/
theorem exists_margin_left (cs : List Char) :
    ∃ gap, (∀ c ∈ gap, isBlank c = true) ∧ cs = gap ++ trimLeft cs := by
  refine ⟨cs.takeWhile isBlank, ?_, (List.takeWhile_append_dropWhile).symm⟩
  intro c hc
  exact List.all_eq_true.mp List.all_takeWhile c hc

theorem exists_margin_right (cs : List Char) :
    ∃ gap, (∀ c ∈ gap, isBlank c = true) ∧ cs = trimRight cs ++ gap := by
  obtain ⟨gap, hgap, he⟩ := exists_margin_left cs.reverse
  refine ⟨gap.reverse, by simpa using hgap, ?_⟩
  have hr := congrArg List.reverse he
  rw [List.reverse_reverse, List.reverse_append] at hr
  exact hr

theorem trimLeft_append_of_blank {gap : List Char} (hgap : ∀ c ∈ gap, isBlank c = true)
    (cs : List Char) : trimLeft (gap ++ cs) = trimLeft cs :=
  List.dropWhile_append_of_pos hgap

theorem trimRight_append_of_blank {gap : List Char} (hgap : ∀ c ∈ gap, isBlank c = true)
    (cs : List Char) : trimRight (cs ++ gap) = trimRight cs := by
  unfold trimRight
  rw [List.reverse_append, List.dropWhile_append_of_pos (by simpa using hgap)]

/-- The right margin of a text is that of any part after a character that is not blank. -/
theorem trimRight_append {a : List Char} (ha : ∀ c ∈ a.getLast?, isBlank c = false)
    (b : List Char) : trimRight (a ++ b) = a ++ trimRight b := by
  obtain ⟨gap, hgap, hb⟩ := exists_margin_right b
  have hl : ∀ c ∈ (a ++ trimRight b).getLast?, isBlank c = false := by
    intro c hc
    rw [List.getLast?_append, Option.mem_def] at hc
    cases hr : (trimRight b).getLast? with
    | none => exact ha c (by simpa [hr] using hc)
    | some c' => exact last_trimRight b c (by simpa [hr] using hc)
  calc trimRight (a ++ b)
      = trimRight ((a ++ trimRight b) ++ gap) := by rw [List.append_assoc, ← hb]
    _ = trimRight (a ++ trimRight b) := trimRight_append_of_blank hgap _
    _ = a ++ trimRight b := trimRight_of_last hl

theorem trimRight_eq_nil_iff (cs : List Char) :
    trimRight cs = [] ↔ ∀ c ∈ cs, isBlank c = true := by
  constructor
  · intro h c hc
    obtain ⟨gap, hgap, hcs⟩ := exists_margin_right cs
    rw [h, List.nil_append] at hcs
    exact hgap c (hcs ▸ hc)
  · intro h
    exact trimRight_append_of_blank h []

theorem trim_eq_nil_iff (cs : List Char) : trim cs = [] ↔ ∀ c ∈ cs, isBlank c = true := by
  obtain ⟨gap, hgap, hcs⟩ := exists_margin_left cs
  unfold trim
  rw [trimRight_eq_nil_iff]
  constructor
  · intro h c hc
    rw [hcs] at hc
    rcases List.mem_append.mp hc with hc | hc
    · exact hgap c hc
    · exact h c hc
  · intro h c hc
    exact h c (mem_of_mem_trimLeft hc)

theorem trimmed_trim (cs : List Char) : Trimmed (trim cs) := by
  refine ⟨?_, last_trimRight _⟩
  intro c hc
  obtain ⟨gap, -, he⟩ := exists_margin_right (trimLeft cs)
  apply head_trimLeft cs c
  rw [he, List.head?_append]
  unfold trim at hc
  rw [Option.mem_def] at hc ⊢
  simp [hc]

/-- A text between blank margins. -/
theorem exists_margins (cs : List Char) :
    ∃ a b, (∀ c ∈ a, isBlank c = true) ∧ (∀ c ∈ b, isBlank c = true) ∧
      cs = a ++ trim cs ++ b := by
  obtain ⟨a, ha, hcs⟩ := exists_margin_left cs
  obtain ⟨b, hb, ht⟩ := exists_margin_right (trimLeft cs)
  refine ⟨a, b, ha, hb, ?_⟩
  rw [List.append_assoc]
  exact hcs.trans (congrArg (a ++ ·) ht)

/-- Blanks around a text are trimmed with it. -/
theorem trim_append_margins {a b : List Char} (ha : ∀ c ∈ a, isBlank c = true)
    (hb : ∀ c ∈ b, isBlank c = true) (cs : List Char) : trim (a ++ cs ++ b) = trim cs := by
  obtain ⟨gap, hgap, hcs⟩ := exists_margin_left cs
  by_cases hne : trimLeft cs = []
  · -- nothing but blanks: both sides are empty
    have hblank : ∀ c ∈ cs, isBlank c = true := by
      intro c hc
      rw [hcs, hne, List.append_nil] at hc
      exact hgap c hc
    have hall : ∀ c ∈ a ++ cs ++ b, isBlank c = true := by
      intro c hc
      rcases List.mem_append.mp hc with hc | hc
      · rcases List.mem_append.mp hc with hc | hc
        · exact ha c hc
        · exact hblank c hc
      · exact hb c hc
    rw [(trim_eq_nil_iff _).mpr hall, (trim_eq_nil_iff _).mpr hblank]
  · have hleft : trimLeft (a ++ cs ++ b) = trimLeft cs ++ b := by
      obtain ⟨c, rest, hc⟩ := List.exists_cons_of_ne_nil hne
      have hhead : isBlank c = false := head_trimLeft cs c (by rw [hc]; rfl)
      calc trimLeft (a ++ cs ++ b)
          = trimLeft (cs ++ b) := by rw [List.append_assoc, trimLeft_append_of_blank ha]
        _ = trimLeft (gap ++ (c :: rest ++ b)) := by
            conv => lhs; rw [hcs, hc, List.append_assoc]
        _ = c :: rest ++ b := by
            rw [trimLeft_append_of_blank hgap, List.cons_append, trimLeft_of_not_blank hhead]
        _ = trimLeft cs ++ b := by rw [hc]
    unfold trim
    rw [hleft, trimRight_append_of_blank hb]

/-- A margin before a trimmed text. -/
theorem Trimmed.trim_append {gap cs : List Char} (h : Trimmed cs)
    (hgap : ∀ c ∈ gap, isBlank c = true) : trim (gap ++ cs) = cs := by
  have hmargins := trim_append_margins hgap (List.forall_mem_nil _) cs
  rwa [List.append_nil, h.trim_eq] at hmargins

theorem mem_of_mem_trim {cs : List Char} {c : Char} (h : c ∈ trim cs) : c ∈ cs := by
  obtain ⟨a, b, -, -, hcs⟩ := exists_margins cs
  rw [hcs]
  simp [h]

/-- The part of a trimmed text after a break, less the blanks at its start, is trimmed. -/
theorem Trimmed.suffix {a b : List Char} (h : Trimmed (a ++ b)) : Trimmed (trimLeft b) := by
  refine ⟨head_trimLeft b, ?_⟩
  intro c hc
  obtain ⟨gap, -, hb⟩ := exists_margin_left b
  apply h.last c
  rw [hb, ← List.append_assoc, List.getLast?_append]
  rw [Option.mem_def] at hc ⊢
  simp [hc]

/-- The first word of a text and the rest, with a blank gap between them unless the rest is
empty. -/
theorem splitWord?_of_head {cs : List Char} (hn : cs ≠ [])
    (h : ∀ c ∈ cs.head?, isBlank c = false) :
    splitWord? cs =
      some (cs.takeWhile (!isBlank ·), trimLeft (cs.dropWhile (!isBlank ·))) := by
  unfold splitWord?
  rw [trimLeft_of_head h]
  cases cs with
  | nil => exact absurd rfl hn
  | cons c cs => rfl

theorem splitWord?_append_gap {w gap : List Char} (hn : w ≠ []) (hw : ∀ c ∈ w, isBlank c = false)
    (hg : gap ≠ []) (hgap : ∀ c ∈ gap, isBlank c = true) (rest : List Char) :
    splitWord? (w ++ (gap ++ rest)) = some (w, trimLeft rest) := by
  have hp : ∀ c ∈ w, (!isBlank c) = true := by simpa using hw
  have hh : ∀ c ∈ (w ++ (gap ++ rest)).head?, isBlank c = false := by
    obtain ⟨c, w, rfl⟩ := List.exists_cons_of_ne_nil hn
    simpa using hw c
  have hend : ∀ c ∈ (gap ++ rest).head?, (!isBlank c) = false := by
    obtain ⟨c, gap, rfl⟩ := List.exists_cons_of_ne_nil hg
    simpa using hgap c
  rw [splitWord?_of_head (by simp [hn]) hh, takeWhile_append_of_head hp hend,
    dropWhile_append_of_head hp hend, trimLeft_append_of_blank hgap]

theorem splitWord?_append {w : List Char} (hn : w ≠ []) (hw : ∀ c ∈ w, isBlank c = false)
    (rest : List Char) : splitWord? (w ++ ' ' :: rest) = some (w, trimLeft rest) :=
  @splitWord?_append_gap w [' '] hn hw (by simp) (by simp [isBlank]) rest

/-- The first word of a trimmed text, the blanks after it, and the rest, which is trimmed. -/
theorem Trimmed.exists_gap {cs word rest : List Char} (h : Trimmed cs)
    (hs : splitWord? cs = some (word, rest)) :
    ∃ gap, (∀ c ∈ gap, isBlank c = true) ∧ cs = word ++ (gap ++ rest) ∧ Trimmed rest ∧
      (rest ≠ [] → gap ≠ []) := by
  have hne : cs ≠ [] := by
    rintro rfl
    cases hs
  rw [splitWord?_of_head hne h.head, Option.some.injEq, Prod.mk.injEq] at hs
  obtain ⟨hword, hrest⟩ := hs
  obtain ⟨gap, hgap, hafter⟩ := exists_margin_left (cs.dropWhile (!isBlank ·))
  rw [hrest] at hafter
  have hwhole : cs = word ++ (gap ++ rest) := by
    rw [← hword, ← hafter, List.takeWhile_append_dropWhile]
  have htrimmed : Trimmed rest := by
    have hsuffix : Trimmed (trimLeft (gap ++ rest)) := (hwhole ▸ h).suffix
    rwa [← hafter, hrest] at hsuffix
  refine ⟨gap, hgap, hwhole, htrimmed, ?_⟩
  rintro hsome rfl
  -- the rest would begin both with a blank and without one
  obtain ⟨c, more, hc⟩ := List.exists_cons_of_ne_nil hsome
  have hblank := List.head?_dropWhile_not (!isBlank ·) cs
  rw [hafter, List.nil_append, hc] at hblank
  simp [htrimmed.head c (by rw [hc]; rfl)] at hblank

theorem mem_of_splitWord? {cs word rest : List Char} (h : splitWord? cs = some (word, rest))
    {c : Char} (hc : c ∈ rest) : c ∈ cs := by
  unfold splitWord? at h
  split at h
  · cases h
  · cases h
    exact mem_of_mem_trimLeft ((List.dropWhile_sublist _).subset (mem_of_mem_trimLeft hc))

theorem firstWord_append {w : List Char} (hn : w ≠ []) (hw : ∀ c ∈ w, isBlank c = false)
    (rest : List Char) : firstWord (w ++ ' ' :: rest) = w := by
  simp [firstWord, splitWord?_append hn hw]

/-- A text that starts with a word and ends with a visible character. -/
theorem trimmed_concat {w : List Char} (hn : w ≠ []) (hw : ∀ c ∈ w, isBlank c = false)
    (rest : List Char) {last : Char} (hlast : isBlank last = false) :
    Trimmed (w ++ (rest ++ [last])) := by
  obtain ⟨c, w, rfl⟩ := List.exists_cons_of_ne_nil hn
  refine ⟨by simpa using hw c, ?_⟩
  intro e he
  rw [← List.append_assoc, List.getLast?_concat] at he
  cases he
  exact hlast

theorem trimmed_append {w rest : List Char} (hn : w ≠ []) (hw : ∀ c ∈ w, isBlank c = false)
    (hr : rest ≠ []) (ht : Trimmed rest) : Trimmed (w ++ ' ' :: rest) := by
  obtain ⟨c, w, rfl⟩ := List.exists_cons_of_ne_nil hn
  refine ⟨by simpa using hw c, ?_⟩
  intro d hd
  have hlast := List.getLast?_eq_some_getLast hr
  rw [List.append_cons, List.getLast?_append, hlast, Option.some_or] at hd
  exact ht.last d (by rwa [hlast])

/-- A word in front of a blank or at the end stands alone. -/
theorem words_append {w : List Char} (hn : w ≠ []) (hw : ∀ c ∈ w, isBlank c = false)
    {rest : List Char} (hr : ∀ c ∈ rest.head?, isBlank c = true) :
    words (w ++ rest) = w :: words rest := by
  induction w with
  | nil => exact absurd rfl hn
  | cons c w ih =>
    have hc : isBlank c = false := hw c (by simp)
    -- only the last character of the word looks at what follows
    cases w with
    | nil =>
      have ha : rest.head?.all isBlank = true := by
        cases rest with
        | nil => rfl
        | cons d rest => simpa using hr d
      simp [words, hc, ha]
    | cons d w =>
      have hd : isBlank d = false := hw d (by simp)
      have hrec := ih (by simp) fun e he => hw e (by simp [he])
      rw [List.cons_append] at hrec ⊢
      rw [List.cons_append, words, hrec]
      simp [hc, hd]

/-- Words with a space before each are found again. -/
theorem words_flatMap {ws : List (List Char)} (hn : ∀ w ∈ ws, w ≠ [])
    (hw : ∀ w ∈ ws, ∀ c ∈ w, isBlank c = false) : words (ws.flatMap (' ' :: ·)) = ws := by
  induction ws with
  | nil => rfl
  | cons w ws ih =>
    have hr : ∀ c ∈ (ws.flatMap (' ' :: ·)).head?, isBlank c = true := by
      cases ws with
      | nil => simp
      | cons v ws => simp [isBlank]
    rw [List.flatMap_cons, List.cons_append, words, if_pos (by decide),
      words_append (hn w (by simp)) (hw w (by simp)) hr,
      ih (fun v hv => hn v (by simp [hv])) fun v hv => hw v (by simp [hv])]

/-- The words of a text hold no blank, are not empty and consist of its characters. -/
theorem of_mem_words {cs w : List Char} (h : w ∈ words cs) :
    w ≠ [] ∧ ∀ c ∈ w, isBlank c = false ∧ c ∈ cs := by
  induction cs generalizing w with
  | nil => simp [words] at h
  | cons c cs ih =>
    have weaken {v : List Char} (hv : v ∈ words cs) :
        v ≠ [] ∧ ∀ d ∈ v, isBlank d = false ∧ d ∈ c :: cs :=
      ⟨(ih hv).1, fun d hd => ⟨((ih hv).2 d hd).1, by simp [((ih hv).2 d hd).2]⟩⟩
    unfold words at h
    split at h
    · exact weaken h
    · rename_i hc
      split at h
      · rcases List.mem_cons.mp h with rfl | h
        · simpa using hc
        · exact weaken h
      · split at h
        · rw [List.mem_singleton] at h
          subst h
          simpa using hc
        · rename_i v vs hv
          rcases List.mem_cons.mp h with rfl | h
          · refine ⟨by simp, fun d hd => ?_⟩
            rcases List.mem_cons.mp hd with rfl | hd
            · simpa using hc
            · exact (weaken (by simp [hv])).2 d hd
          · exact weaken (by simp [hv, h])

theorem splitOn_of_not_mem {sep : Char} {cs : List Char} (h : sep ∉ cs) :
    splitOn sep cs = [cs] := by
  induction cs with
  | nil => rfl
  | cons c cs ih =>
    simp only [List.mem_cons, not_or] at h
    simp [splitOn, Ne.symm h.1, ih h.2]

/-- Cutting at a separator is cutting what stands before it and what stands after it. -/
theorem splitOn_append (sep : Char) (a b : List Char) :
    splitOn sep (a ++ sep :: b) = splitOn sep a ++ splitOn sep b := by
  induction a with
  | nil => simp [splitOn]
  | cons c a ih =>
    by_cases hc : c = sep
    · simp [splitOn, hc, ih]
    · obtain ⟨p, ps, hp⟩ := List.exists_cons_of_ne_nil (splitOn_ne_nil sep a)
      simp [splitOn, hc, ih, hp]

/-- Lines ended by a separator that is in none of them are found again, and one empty line. -/
theorem splitOn_flatMap {sep : Char} {ls : List (List Char)} (h : ∀ l ∈ ls, sep ∉ l) :
    splitOn sep (ls.flatMap (· ++ [sep])) = ls ++ [[]] := by
  induction ls with
  | nil => rfl
  | cons l ls ih =>
    rw [List.flatMap_cons, List.append_assoc, List.singleton_append, splitOn_append,
      splitOn_of_not_mem (h l (by simp)), ih fun m hm => h m (by simp [hm]), List.singleton_append,
      List.cons_append]

theorem not_mem_of_mem_splitOn {sep : Char} {cs l : List Char} (h : l ∈ splitOn sep cs) :
    sep ∉ l := by
  induction cs generalizing l with
  | nil =>
    rw [splitOn, List.mem_singleton] at h
    simp [h]
  | cons c cs ih =>
    obtain ⟨p, ps, hp⟩ := List.exists_cons_of_ne_nil (splitOn_ne_nil sep cs)
    unfold splitOn at h
    rw [hp] at h ih
    by_cases hc : c = sep
    · rw [if_pos hc] at h
      rcases List.mem_cons.mp h with rfl | h
      · simp
      · exact ih h
    · rw [if_neg hc] at h
      rcases List.mem_cons.mp h with rfl | h
      · simpa [Ne.symm hc] using ih (l := p) (by simp)
      · exact ih (by simp [h])

theorem joinWith_cons (sep head : List Char) (ps : List (List Char)) :
    joinWith sep (head :: ps) = head ++ ps.flatMap (sep ++ ·) := by
  induction ps generalizing head with
  | nil => simp [joinWith]
  | cons p ps ih => simp [joinWith, ih]

/-- Pieces that do not hold the separator are found again. -/
theorem splitOn_joinWith {sep : Char} {ps : List (List Char)} (hn : ps ≠ [])
    (h : ∀ p ∈ ps, sep ∉ p) : splitOn sep (joinWith [sep] ps) = ps := by
  induction ps with
  | nil => exact absurd rfl hn
  | cons p ps ih =>
    cases ps with
    | nil => exact splitOn_of_not_mem (h p (by simp))
    | cons q qs =>
      rw [joinWith, List.append_assoc, List.singleton_append, splitOn_append,
        splitOn_of_not_mem (h p (by simp)), ih (by simp) fun q hq => h q (by simp [hq]),
        List.singleton_append]

theorem mem_of_mem_joinWith {sep : List Char} {ps : List (List Char)} {c : Char}
    (h : c ∈ joinWith sep ps) : c ∈ sep ∨ ∃ p ∈ ps, c ∈ p := by
  cases ps with
  | nil => cases h
  | cons p ps =>
    rw [joinWith_cons, List.mem_append, List.mem_flatMap] at h
    rcases h with h | ⟨q, hq, h⟩
    · exact .inr ⟨p, by simp, h⟩
    · rcases List.mem_append.mp h with h | h
      · exact .inl h
      · exact .inr ⟨q, by simp [hq], h⟩

end ArchDiagram.Text
