import ArchDiagram.Proofs.D2Drawing

/-!
Statements of D2 text. Quoted text may hold any character, a line feed as well: a backslash protects
the character after it, so only the quote that was put at its end closes it. Cut at the line feeds
that stand outside quotes, a diagram falls into the lines that it was put together from, whatever
its title is.
-/

namespace ArchDiagram.Render.D2

open Text Source

/-- Where a character of a diagram stands: outside quotes, inside them, or there after a
backslash. -/
inductive Quoting where
  | outside
  | inside
  | escaped
  deriving DecidableEq

/-- Where the next character stands. -/
def Quoting.next : Quoting → Char → Quoting
  | outside, c => if c = '"' then inside else outside
  | inside, c => if c = '"' then outside else if c = '\\' then escaped else inside
  | escaped, _ => inside

/-- The statements of a text whose first character stands at `q`. -/
def statementsFrom : Quoting → List Char → List (List Char)
  | _, [] => [[]]
  | q, c :: cs =>
    if c = '\n' ∧ q = .outside then [] :: statementsFrom .outside cs
    else match statementsFrom (q.next c) cs with
      | [] => [[c]]
      | p :: ps => (c :: p) :: ps

/-- A text cut at the line feeds outside quotes. -/
def statements (cs : List Char) : List (List Char) :=
  statementsFrom .outside cs

/-- What follows the quote that closes a quoted text, seen from inside it. -/
def afterQuote : Quoting → List Char → List Char
  | _, [] => []
  | q, c :: cs => if q.next c = .outside then cs else afterQuote (q.next c) cs

/-- An escaped character is protected by a backslash, or means nothing inside quotes. -/
theorem escapeChar_cases (c : Char) :
    escapeChar c = ['\\', c] ∨ escapeChar c = [c] ∧ Quoting.next .inside c = .inside := by
  unfold escapeChar
  split
  · exact .inl rfl
  · rename_i hc
    simp only [Bool.or_eq_true, decide_eq_true_eq, not_or] at hc
    exact .inr ⟨rfl, by rw [Quoting.next, if_neg hc.2, if_neg hc.1]⟩

/-- A text that leads from one place to another without a cut. -/
inductive Spans : Quoting → List Char → Quoting → Prop
  | nil (q : Quoting) : Spans q [] q
  | cons {q q' : Quoting} {c : Char} {cs : List Char} (hcut : ¬(c = '\n' ∧ q = .outside))
      (h : Spans (q.next c) cs q') : Spans q (c :: cs) q'

namespace Spans

variable {q q' q'' : Quoting} {cs ds : List Char}

theorem append (h : Spans q cs q') (h' : Spans q' ds q'') : Spans q (cs ++ ds) q'' := by
  induction h with
  | nil => exact h'
  | cons hcut _ ih => exact .cons hcut (ih h')

/-- Text without quotes and line feeds stays outside quotes. -/
theorem plain (h : ∀ c ∈ cs, c ≠ '"' ∧ c ≠ '\n') : Spans .outside cs .outside := by
  induction cs with
  | nil => exact .nil _
  | cons c cs ih =>
    obtain ⟨⟨hquote, hline⟩, hrest⟩ := List.forall_mem_cons.mp h
    refine .cons (fun hcut => hline hcut.1) ?_
    rw [Quoting.next, if_neg hquote]
    exact ih hrest

/-- Text made of the characters of identifiers stays outside quotes. -/
theorem identifier (h : isIdentifier cs = true) : Spans .outside cs .outside :=
  .plain fun _ hc => ⟨fun heq => not_mem_identifier h (by decide) (heq ▸ hc),
    fun heq => not_mem_identifier h (by decide) (heq ▸ hc)⟩

theorem bare {s : String} (h : Bare s) : Spans .outside s.toList .outside := by
  refine .plain fun c hc => ⟨(h.2 c hc).2, ?_⟩
  rintro rfl
  exact absurd (h.2 _ hc).1 (by decide)

/-- Escaped text stays inside quotes, whatever it is. -/
theorem escape (cs : List Char) : Spans .inside (escape cs) .inside := by
  have hinside {c : Char} : ¬(c = '\n' ∧ Quoting.inside = .outside) := fun hcut => nomatch hcut.2
  have hescaped {c : Char} : ¬(c = '\n' ∧ Quoting.escaped = .outside) := fun hcut => nomatch hcut.2
  induction cs with
  | nil => exact .nil _
  | cons c cs ih =>
    change Spans .inside (escapeChar c ++ D2.escape cs) .inside
    rcases escapeChar_cases c with hc | ⟨hc, hnext⟩ <;> rw [hc]
    · exact .cons hinside (.cons hescaped ih)
    · exact .cons hinside (by rwa [hnext])

theorem quoted (s : String) : Spans .outside (quoted s) .outside := by
  have hopen : ¬('"' = '\n' ∧ Quoting.outside = .outside) := by decide
  have hclose : ¬('"' = '\n' ∧ Quoting.inside = .outside) := by decide
  have hclosed : Spans .inside ['"'] .outside := .cons hclose (.nil _)
  exact .cons hopen ((Spans.escape s.toList).append hclosed)

theorem joinWith {sep : List Char} {ps : List (List Char)} (hsep : Spans .outside sep .outside)
    (h : ∀ p ∈ ps, Spans .outside p .outside) : Spans .outside (joinWith sep ps) .outside := by
  cases ps with
  | nil => exact .nil _
  | cons p ps =>
    obtain ⟨hp, hps⟩ := List.forall_mem_cons.mp h
    rw [joinWith_cons]
    refine hp.append ?_
    induction ps with
    | nil => exact .nil _
    | cons p' ps ih =>
      obtain ⟨hp', hps⟩ := List.forall_mem_cons.mp hps
      exact (hsep.append hp').append (ih (List.forall_mem_cons.mpr ⟨hp, hps⟩) hps)

/-- What is passed without a cut belongs to the first statement. -/
theorem statementsFrom_append (h : Spans q cs q') {rest p : List Char} {ps : List (List Char)}
    (hrest : statementsFrom q' rest = p :: ps) :
    statementsFrom q (cs ++ rest) = (cs ++ p) :: ps := by
  induction h with
  | nil => exact hrest
  | cons hcut _ ih =>
    rw [List.cons_append, statementsFrom, if_neg hcut, ih hrest]
    rfl

end Spans

/-- Lines that end outside quotes are found again as statements. -/
theorem statements_unlines {ls : List (List Char)} (hn : ls ≠ [])
    (h : ∀ l ∈ ls, Spans .outside l .outside) : statements (unlines ls) = ls := by
  induction ls with
  | nil => exact absurd rfl hn
  | cons l ls ih =>
    obtain ⟨hl, hls⟩ := List.forall_mem_cons.mp h
    cases ls with
    | nil =>
      have hend : statementsFrom .outside (l ++ []) = [l ++ []] := hl.statementsFrom_append rfl
      rwa [List.append_nil] at hend
    | cons l' ls =>
      have hrest := ih (by simp) hls
      have hcut : statementsFrom .outside ('\n' :: unlines (l' :: ls)) = [] :: l' :: ls := by
        rw [statementsFrom, if_pos ⟨rfl, rfl⟩]
        exact congrArg _ hrest
      have hall := hl.statementsFrom_append hcut
      rw [List.append_nil] at hall
      rw [statements, unlines, joinWith, List.append_assoc]
      exact hall

/-- Quoted text is left at its end. -/
theorem afterQuote_escape (cs rest : List Char) :
    afterQuote .inside (escape cs ++ '"' :: rest) = rest := by
  induction cs with
  | nil => rfl
  | cons c cs ih =>
    change afterQuote .inside (escapeChar c ++ escape cs ++ '"' :: rest) = rest
    rw [List.append_assoc]
    rcases escapeChar_cases c with hc | ⟨hc, hnext⟩ <;> rw [hc]
    · exact ih
    · rwa [List.singleton_append, afterQuote, hnext, if_neg (by decide)]

section Written

variable {α : Type} {d : Document α}

theorem isIdentifier_of_isBareKey {cs : List Char} (h : isBareKey cs = true) :
    isIdentifier cs = true := by
  cases cs with
  | nil => cases h
  | cons c cs =>
    obtain ⟨hstart, hrest⟩ := Bool.and_eq_true_iff.mp h
    refine Bool.and_eq_true_iff.mpr ⟨hstart, List.all_eq_true.mpr fun a ha => ?_⟩
    exact Bool.or_eq_true_iff.mpr (.inl (List.all_eq_true.mp hrest a ha))

theorem spans_key (id : String) : Spans .outside (key id) .outside := by
  unfold key
  split
  · rename_i hbare
    exact .identifier (isIdentifier_of_isBareKey hbare)
  · exact .quoted id

theorem spans_path (d : Document α) (id : String) : Spans .outside (path d id) .outside := by
  refine Spans.joinWith (.plain (forall_mem_of_all (by decide))) fun p hp => ?_
  obtain ⟨id', -, rfl⟩ := List.mem_map.mp hp
  exact spans_key id'

/-- The parts in the braces of a node stay outside quotes when its icon does. -/
theorem spans_styles {icon : Option String} (hicon : ∀ i ∈ icon, Spans .outside i.toList .outside)
    {part : List Char} (hpart : part ∈ styles icon) : Spans .outside part .outside := by
  simp only [styles, List.mem_append, Option.mem_toList, Option.map_eq_some_iff,
    Option.bind_eq_some_iff, Option.filter_eq_some_iff] at hpart
  rcases hpart with ⟨s, ⟨i, -, hs⟩, rfl⟩ | ⟨i, ⟨hi, -⟩, rfl⟩
  · exact (Spans.plain (forall_mem_of_all (by decide))).append (.identifier (isIdentifier_shape hs))
  · exact (Spans.plain (forall_mem_of_all (by decide))).append (hicon i hi)

theorem spans_nodeText {n : Node α} {icon : Option String}
    (hicon : ∀ i ∈ icon, Spans .outside i.toList .outside) :
    Spans .outside (nodeText n icon) .outside := by
  have hhead : Spans .outside (key n.id ++ ": ".toList ++ quoted n.label) .outside :=
    ((spans_key n.id).append (.plain (forall_mem_of_all (by decide)))).append (.quoted n.label)
  have hparts : Spans .outside (joinWith "; ".toList (styles icon)) .outside :=
    .joinWith (.plain (forall_mem_of_all (by decide))) fun _ => spans_styles hicon
  dsimp only [nodeText]
  split
  · exact hhead
  · exact ((hhead.append (.plain (forall_mem_of_all (by decide)))).append hparts).append
      (.plain (forall_mem_of_all (by decide)))

theorem spans_indent (depth : Nat) : Spans .outside (indent depth) .outside := by
  apply Spans.plain
  intro c hc
  rw [List.eq_of_mem_replicate hc]
  decide

/-- The line of a mark ends outside quotes, whatever the texts in the document. -/
theorem spans_entryLine {e : Entry α} (r : Icon.Registry)
    (hicon : ∀ n, e.mark = .node n → ∀ i ∈ n.icon, Spans .outside i.toList .outside) :
    Spans .outside (entryLine r e).1 .outside := by
  obtain ⟨depth, mark⟩ := e
  cases mark with
  | opened c =>
    exact ((((spans_indent depth).append (spans_key c.id)).append
      (.plain (forall_mem_of_all (by decide)))).append (.quoted c.label)).append
        (.plain (forall_mem_of_all (by decide)))
  | node n =>
    refine (spans_indent depth).append (spans_nodeText fun i hi => ?_)
    rcases resolveIcon_eq r n hi with rfl | htag
    · exact .plain (forall_mem_of_all (by decide))
    · exact hicon n rfl i htag
  | closed => exact (spans_indent depth).append (.plain (forall_mem_of_all (by decide)))

theorem spans_linkLine (d : Document α) (l : Link) : Spans .outside (linkLine d l) .outside := by
  obtain ⟨tail, htext, htail⟩ := exists_linkLine d l
  have harrow : Spans .outside (' ' :: (arrowOf l).chars ++ [' ']) .outside := by
    cases arrowOf l <;> exact .plain (forall_mem_of_all (by decide))
  have hcolon : Spans .outside [':', ' '] .outside := .plain (forall_mem_of_all (by decide))
  have hend : Spans .outside tail .outside := by
    rcases htail with rfl | ⟨label, -, rfl⟩
    · exact .nil _
    · exact hcolon.append (.quoted label)
  have hall := (((spans_path d l.source).append harrow).append (spans_path d l.target)).append hend
  simpa [htext] using hall

theorem spans_titleLines (title : String) : ∀ l ∈ titleLines title, Spans .outside l .outside := by
  intro l hl
  unfold titleLines at hl
  split at hl
  · cases hl
  · simp only [List.mem_cons, List.not_mem_nil, or_false] at hl
    rcases hl with rfl | rfl
    · exact ((Spans.plain (forall_mem_of_all (by decide))).append (.quoted title)).append
        (.plain (forall_mem_of_all (by decide)))
    · exact .nil _

/-- The statements of a diagram are its lines. -/
theorem statements_lines {es : List (Entry α)} (hes : ∀ e ∈ es, e.mark.Shows d)
    (hicons : ∀ n ∈ d.nodes, ∀ i ∈ n.icon, Spans .outside i.toList .outside) (r : Icon.Registry) :
    statements (unlines (lines d (entryLines r es).1)) = lines d (entryLines r es).1 := by
  have hbody : ∀ l ∈ (entryLines r es).1, Spans .outside l .outside := by
    -- the registry changes from mark to mark, so it is general in the induction
    induction es generalizing r with
    | nil => simp [entryLines]
    | cons e es ih =>
      obtain ⟨he, hrest⟩ := List.forall_mem_cons.mp hes
      refine List.forall_mem_cons.mpr ⟨spans_entryLine r fun n hn => ?_, ih hrest _⟩
      rw [hn] at he
      exact hicons n he
  apply statements_unlines (by simp [lines])
  intro l hl
  simp only [lines, List.mem_append, List.mem_cons, List.mem_map, List.not_mem_nil, or_false] at hl
  rcases hl with ((((rfl | rfl) | hl) | hl) | rfl) | ⟨k, -, rfl⟩
  · exact .plain (forall_mem_of_all (by decide))
  · exact .nil _
  · exact spans_titleLines d.title l hl
  · exact hbody l hl
  · exact .nil _
  · exact spans_linkLine d k

end Written

/-- A document that was read has an outline, and its lines are the statements of its diagram. -/
theorem exists_outline {defaultTitle source : String} {d : Document Binary64}
    (hparse : parse defaultTitle source = .success d) :
    ∃ es, outline? (fun i => parentOfId d i.id) d = some es ∧ (∀ e ∈ es, e.mark.Shows d) ∧
      ∀ r, statements (unlines (lines d (entryLines r es).1)) = lines d (entryLines r es).1 := by
  have hp := plain_of_parse hparse
  have hd := resolved_of_parse hparse
  obtain ⟨es, hes⟩ := Option.isSome_iff_exists.mp
    (isSome_outline? (fun i => parentOfId d i.id) hd.nodup_containerIds)
  have hshows := shows_of_outlineWithin? hes
  exact ⟨es, hes, hshows, statements_lines hshows fun n hn i hi => .bare (hp.icons n hn i hi)⟩

end ArchDiagram.Render.D2
