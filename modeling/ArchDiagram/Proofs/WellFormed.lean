import ArchDiagram.Proofs.Ancestry
import ArchDiagram.Proofs.History

/-!
Well-formed sources, stated on their lines alone: every statement is acceptable on its own, there is
at most one title, identifiers are declared once, braces balance, and references lead to declared
items. Each of these conditions says that one kind of fault is absent from the history of the
lines.
-/

namespace ArchDiagram.Source

open Text

/-- A line that is acceptable on its own. -/
def Line.WellFormed (l : Line) : Prop :=
  match l.kind with
  | .comment | .blank | .blockEnd => True
  | .declaration => ∃ d, Declaration.read l = .ok d
  | .link => ∃ k, LinkStatement.read l = .ok k
  | .title => ∃ text, TitleForm (l.text.drop 5) text
  | .unknown => False

/-- Braces balance: no prefix closes more blocks than it opens, and all lines close as many. -/
structure Balanced (ls : List Line) : Prop where
  never_below : ∀ p, p <+: ls → p.countP Line.closes ≤ p.countP Line.opens
  settled : ls.countP Line.closes = ls.countP Line.opens

/-- The line of the innermost open block, found by going back from the latest line: the first line
that opens a block, when `closed` blocks and those closed on the way are passed over. -/
def innermost? : Nat → List Line → Option Line
  | _, [] => none
  | closed, l :: before =>
    if l.opens then
      match closed with
      | 0 => some l
      | closed + 1 => innermost? closed before
    else if l.closes then innermost? (closed + 1) before
    else innermost? closed before

/-- The parent that a declaration states, or else the container of the innermost open block. -/
def effectiveParent (before : List Line) (d : Declaration) : Option String :=
  d.parent <|> ((innermost? 0 before).bind Line.declaration?).map (·.id)

/-- The declarations of lines with their effective parents, in order; `before` are the lines in
front of them, the latest first. -/
def declared (before : List Line) : List Line → List Declaration
  | [] => []
  | l :: rest =>
    (l.declaration?.map fun d => { d with parent := effectiveParent before d }).toList ++
      declared (l :: before) rest

structure WellFormed (ls : List Line) : Prop where
  statements : ∀ l ∈ ls, l.WellFormed
  one_title : ls.countP (fun l => l.kind = .title) ≤ 1
  distinct : ((declared [] ls).map (·.id)).Nodup
  braces : Balanced ls
  ends : ∀ k ∈ ls.filterMap Line.link?,
    k.source ∈ (declared [] ls).map (·.id) ∧ k.target ∈ (declared [] ls).map (·.id)
  parents : ∀ d ∈ declared [] ls, ∀ p ∈ d.parent, p ∈ (containersOf (declared [] ls)).map (·.id)
  acyclic : Acyclic (containersOf (declared [] ls))

/-- The link of a statement, with the identifier that its position gives it. -/
def LinkStatement.numbered (i : Nat) (k : LinkStatement) : Link :=
  { id := "l" ++ toString (i + 1)
    source := k.source
    target := k.target
    bidirectional := k.bidirectional
    label := k.label }

/-- A document with the title, the declarations and the links of lines, and nothing else. -/
structure Holds (defaultTitle : String) (ls : List Line) (d : Document Binary64) : Prop where
  written_title : ∀ l ∈ ls, l.kind = .title → TitleForm (l.text.drop 5) d.title.toList
  default_title : (∀ l ∈ ls, l.kind ≠ .title) → d.title = defaultTitle
  nodes : d.nodes = ((declared [] ls).filter (!·.isContainer)).map Declaration.toNode
  containers : d.containers = containersOf (declared [] ls)
  links : d.links = (ls.filterMap Line.link?).mapIdx LinkStatement.numbered

namespace History

/-- A property of every line of a history together with the lines before it. -/
def Along (P : List Line → Line → Prop) : List Line → Prop
  | [] => True
  | l :: before => P before l ∧ Along P before

theorem along_and (P Q : List Line → Line → Prop) (h : List Line) :
    Along (fun before l => P before l ∧ Q before l) h ↔ Along P h ∧ Along Q h := by
  induction h with
  | nil => simp [Along]
  | cons l before ih =>
    rw [Along, Along, Along, ih]
    exact and_and_and_comm

theorem along_congr {P Q : List Line → Line → Prop} {h : List Line}
    (hpq : ∀ l ∈ h, ∀ before, P before l ↔ Q before l) : Along P h ↔ Along Q h := by
  induction h with
  | nil => rfl
  | cons l before ih =>
    rw [Along, Along, hpq l (by simp), ih fun k hk => hpq k (by simp [hk])]

theorem along_iff_forall (P : Line → Prop) (h : List Line) :
    Along (fun _ l => P l) h ↔ ∀ l ∈ h, P l := by
  induction h with
  | nil => simp [Along]
  | cons l before ih => rw [Along, ih, List.forall_mem_cons]

theorem diagnostics_eq_nil_iff (h : List Line) :
    diagnostics h = [] ↔ Along (fun before l => fault? before l = none) h := by
  induction h with
  | nil => simp [diagnostics, Along]
  | cons l before ih =>
    rw [diagnostics, List.append_eq_nil_iff, ih, Along, and_comm]
    simp

/-- A line has no fault when it is acceptable on its own and in its place. -/
theorem fault?_eq_none_iff {l : Line} (hl : l.Classified) (before : List Line) :
    fault? before l = none ↔
      l.WellFormed ∧ (∀ d ∈ l.declaration?, ∀ k ∈ before, k.declares d.id = false) ∧
        (l.kind = .title → title? before = none) ∧
          (l.closes = true → openBlocks before ≠ []) := by
  cases hk : l.kind with
  | comment => simp [fault?, Line.WellFormed, Line.declaration?, Line.closes, hk]
  | blank => simp [fault?, Line.WellFormed, Line.declaration?, Line.closes, hk]
  | unknown => simp [fault?, Line.WellFormed, hk]
  | blockEnd => simp [fault?, Line.WellFormed, Line.declaration?, Line.closes, hk]
  | link =>
    cases hr : LinkStatement.read l <;>
      simp [fault?, Line.WellFormed, Line.declaration?, Line.closes, hk, hr]
  | declaration =>
    rcases read_declaration_cases hl hk with ⟨d, hd⟩ | ⟨f, hf⟩
    · have hsome := declaration?_eq_some_iff.mpr ⟨hk, hd⟩
      have hfind := find?_kept_eq_none_iff before d.id
      rw [List.find?_eq_none] at hfind
      simpa [fault?, Line.WellFormed, Line.closes, hk, hd, hsome] using hfind
    · simp [fault?, Line.WellFormed, hk, hf]
  | title =>
    have hform : (∃ text, TitleForm (l.text.drop 5) text) ↔ ∃ t, readTitle l = .ok t := by
      constructor
      · rintro ⟨text, ht⟩
        exact ⟨_, readTitle_of_form ht⟩
      · rintro ⟨t, ht⟩
        exact ⟨_, form_of_readTitle ht⟩
    cases hr : readTitle l <;>
      simp [fault?, Line.WellFormed, Line.declaration?, Line.closes, hk, hr, hform]

/-- Where every closing line finds an open block, blocks are counted by the lines that open and
close them. -/
theorem length_openBlocks {h : List Line}
    (hm : Along (fun before l => l.closes = true → openBlocks before ≠ []) h) :
    h.countP Line.closes + (openBlocks h).length = h.countP Line.opens := by
  induction h with
  | nil => rfl
  | cons l before ih =>
    obtain ⟨hl, hb⟩ := hm
    have hcount := ih hb
    rw [List.countP_cons, List.countP_cons, openBlocks]
    by_cases ho : l.opens = true
    · have hc : l.closes = false := by
        simp only [Line.opens, Bool.and_eq_true, decide_eq_true_eq] at ho
        simp [Line.closes, ho.1]
      simp only [ho, hc, if_true, List.length_cons, Bool.false_eq_true, if_false]
      omega
    · by_cases hc : l.closes = true
      · have hpos : 0 < (openBlocks before).length := List.length_pos_iff.mpr (hl hc)
        simp only [ho, hc, if_true, Bool.false_eq_true, if_false, List.length_tail]
        omega
      · simp only [ho, hc, Bool.false_eq_true, if_false]
        omega

theorem along_suffix {P : List Line → Line → Prop} {h k : List Line} (hp : Along P h)
    (hk : k <:+ h) : Along P k := by
  induction h with
  | nil => rwa [List.suffix_nil.mp hk]
  | cons l before ih =>
    rcases List.suffix_cons_iff.mp hk with rfl | hk
    · exact hp
    · exact ih hp.2 hk

/-- Braces balance exactly when every closing line finds an open block and none is left. -/
theorem balanced_iff (h : List Line) :
    Balanced h.reverse ↔
      Along (fun before l => l.closes = true → openBlocks before ≠ []) h ∧ openBlocks h = [] := by
  have hsuffix : (∀ p, p <+: h.reverse → p.countP Line.closes ≤ p.countP Line.opens) ↔
      ∀ k, k <:+ h → k.countP Line.closes ≤ k.countP Line.opens := by
    constructor
    · intro hp k hk
      simpa using hp k.reverse (List.reverse_prefix.mpr hk)
    · intro hs p hp
      have hp' : p.reverse <:+ h := by simpa using List.reverse_suffix.mpr hp
      simpa using hs p.reverse hp'
  constructor
  · rintro ⟨hbelow, hsettled⟩
    -- a closing line with nothing open would close one block too many
    have halong : Along (fun before l => l.closes = true → openBlocks before ≠ []) h := by
      have hs := hsuffix.mp hbelow
      clear hsettled hbelow hsuffix
      induction h with
      | nil => trivial
      | cons l before ih =>
        have hb := ih fun k hk => hs k (hk.trans (List.suffix_cons l before))
        refine ⟨fun hc he => ?_, hb⟩
        have hcount := length_openBlocks hb
        have hwhole := hs (l :: before) (List.suffix_refl _)
        have ho : l.opens = false := by
          simp only [Line.closes, decide_eq_true_eq] at hc
          simp [Line.opens, hc]
        rw [List.countP_cons, List.countP_cons] at hwhole
        simp only [hc, ho, if_true, Bool.false_eq_true, if_false] at hwhole
        rw [he, List.length_nil] at hcount
        omega
    refine ⟨halong, ?_⟩
    have hcount := length_openBlocks halong
    rw [List.countP_reverse, List.countP_reverse] at hsettled
    exact List.length_eq_zero_iff.mp (by omega)
  · rintro ⟨halong, hempty⟩
    refine ⟨hsuffix.mpr fun k hk => ?_, ?_⟩
    · have hcount := length_openBlocks (along_suffix halong hk)
      omega
    · have hcount := length_openBlocks halong
      rw [hempty, List.length_nil] at hcount
      rw [List.countP_reverse, List.countP_reverse]
      omega

theorem title?_eq_none_iff {h : List Line} (hw : ∀ l ∈ h, l.WellFormed) :
    title? h = none ↔ ∀ l ∈ h, l.kind ≠ .title := by
  have hline (l : Line) (hl : l.WellFormed) : l.title? = none ↔ l.kind ≠ .title := by
    by_cases hk : l.kind = .title
    · obtain ⟨text, ht⟩ : ∃ text, TitleForm (l.text.drop 5) text := by
        simpa [Line.WellFormed, hk] using hl
      simp [Line.title?, hk, readTitle_of_form ht, Except.toOption]
    · simp [Line.title?, hk]
  unfold title?
  rw [List.findSome?_eq_none_iff]
  constructor
  · intro hn l hl
    exact (hline l (hw l hl)).mp (hn l (List.mem_reverse.mpr hl))
  · intro hn l hl
    have hl := List.mem_reverse.mp hl
    exact (hline l (hw l hl)).mpr (hn l hl)

/-- No title line comes after another exactly when there is at most one. -/
theorem along_title_iff {h : List Line} (hw : ∀ l ∈ h, l.WellFormed) :
    Along (fun before l => l.kind = .title → title? before = none) h ↔
      h.countP (fun l => l.kind = .title) ≤ 1 := by
  induction h with
  | nil => simp [Along]
  | cons l before ih =>
    have hbefore : ∀ k ∈ before, k.WellFormed := fun k hk => hw k (by simp [hk])
    have hnone : (∀ k ∈ before, k.kind ≠ .title) ↔
        before.countP (fun k => k.kind = .title) = 0 := by
      rw [List.countP_eq_zero]
      simp
    rw [Along, ih hbefore, title?_eq_none_iff hbefore, hnone, List.countP_cons]
    -- a title line counts once, and then none may come before it
    by_cases hk : l.kind = .title
    · simp only [hk, true_imp_iff, decide_true, if_true]
      omega
    · simp [hk]

theorem map_id_declared (before ls : List Line) :
    (declared before ls).map (·.id) = (ls.filterMap Line.declaration?).map (·.id) := by
  induction ls generalizing before with
  | nil => rfl
  | cons l ls ih =>
    rw [declared, List.map_append, ih]
    cases hd : l.declaration? <;> simp [hd]

/-- No line declares what an earlier one does exactly when the declared identifiers differ. -/
theorem along_distinct_iff (h : List Line) :
    Along (fun before l => ∀ d ∈ l.declaration?, ∀ k ∈ before, k.declares d.id = false) h ↔
      ((declared [] h.reverse).map (·.id)).Nodup := by
  rw [map_id_declared, List.filterMap_reverse, List.map_reverse, List.nodup_reverse]
  induction h with
  | nil => simp [Along]
  | cons l before ih =>
    rw [Along, ih]
    cases hd : l.declaration? with
    | none => simp [hd]
    | some d =>
      have hmem : (∀ k ∈ before, k.declares d.id = false) ↔
          d.id ∉ (before.filterMap Line.declaration?).map (·.id) := by
        constructor
        · intro hk hin
          obtain ⟨e, he, hid⟩ := List.mem_map.mp hin
          obtain ⟨k, hkm, hke⟩ := List.mem_filterMap.mp he
          have := hk k hkm
          simp [Line.declares, hke, hid] at this
        · intro hn k hk
          cases hke : k.declaration? with
          | none => simp [Line.declares, hke]
          | some e =>
            have he : e ∈ before.filterMap Line.declaration? := List.mem_filterMap.mpr ⟨k, hk, hke⟩
            have hne : e.id ≠ d.id := fun heq => hn (List.mem_map.mpr ⟨e, he, heq⟩)
            simp [Line.declares, hke, hne]
      rw [List.filterMap_cons_some hd, List.map_cons, List.nodup_cons, ← hmem]
      simp

/-- A history in which every declaration counts: each is the first of its identifier, and every
opening line holds one. -/
def Clean : List Line → Prop :=
  Along fun before l => first? before l = l.declaration? ∧ (l.opens = true → l.declaration? ≠ none)

theorem clean_of_diagnostics {h : List Line} (hl : ∀ l ∈ h, l.Classified)
    (hd : diagnostics h = []) : Clean h := by
  rw [diagnostics_eq_nil_iff] at hd
  induction h with
  | nil => trivial
  | cons l before ih =>
    obtain ⟨hwell, hfirst, -⟩ := (fault?_eq_none_iff (hl l (by simp)) before).mp hd.1
    refine ⟨⟨?_, ?_⟩, ih (fun k hk => hl k (by simp [hk])) hd.2⟩
    · cases hld : l.declaration? with
      | none => simp [first?, hld]
      | some d => exact first?_eq_some_iff.mpr ⟨hld, hfirst d hld⟩
    · intro ho
      have hk : l.kind = .declaration := by
        simp only [Line.opens, Bool.and_eq_true, decide_eq_true_eq] at ho
        exact ho.1
      obtain ⟨d, hr⟩ : ∃ d, Declaration.read l = .ok d := by simpa [Line.WellFormed, hk] using hwell
      simp [declaration?_eq_some_iff.mpr ⟨hk, hr⟩]

/-- Going back over closed blocks finds what stands on the stack. -/
theorem head?_drop_openBlocks {h : List Line} (hc : Clean h) (n : Nat) :
    ((openBlocks h).drop n).head? =
      (innermost? n h).map fun l => ⟨l.declaration?.map (·.id), l.number⟩ := by
  induction h generalizing n with
  | nil => simp [openBlocks, innermost?]
  | cons l before ih =>
    obtain ⟨⟨hfirst, -⟩, hb⟩ := hc
    rw [openBlocks, innermost?.eq_def]
    by_cases ho : l.opens = true
    · cases n with
      | zero => simp [ho, hfirst]
      | succ n => simpa [ho] using ih hb n
    · by_cases hcl : l.closes = true
      · -- a closing line makes one more open block to pass over
        simpa [ho, hcl, List.drop_tail] using ih hb (n + 1)
      · simpa [ho, hcl] using ih hb n

theorem container_of_mem_openBlocks {h : List Line} (hc : Clean h) :
    ∀ b ∈ openBlocks h, b.container ≠ none := by
  induction h with
  | nil => simp [openBlocks]
  | cons l before ih =>
    obtain ⟨⟨hfirst, hsome⟩, hb⟩ := hc
    intro b hmem
    rw [openBlocks] at hmem
    split at hmem
    · rename_i ho
      rcases List.mem_cons.mp hmem with rfl | hmem
      · simpa [hfirst] using hsome ho
      · exact ih hb b hmem
    · split at hmem
      · exact ih hb b (List.mem_of_mem_tail hmem)
      · exact ih hb b hmem

theorem enclosing?_eq {h : List Line} (hc : Clean h) :
    enclosing? h = ((innermost? 0 h).bind Line.declaration?).map (·.id) := by
  have hhead := head?_drop_openBlocks hc 0
  rw [List.drop_zero] at hhead
  unfold enclosing?
  cases hb : openBlocks h with
  | nil =>
    rw [hb, List.head?_nil, eq_comm, Option.map_eq_none_iff] at hhead
    simp [hhead]
  | cons b bs =>
    rw [hb, List.head?_cons, eq_comm, Option.map_eq_some_iff] at hhead
    obtain ⟨l, hl, rfl⟩ := hhead
    have hsome := container_of_mem_openBlocks hc _ (hb ▸ List.mem_cons_self)
    obtain ⟨id, hid⟩ := Option.ne_none_iff_exists'.mp hsome
    rw [List.findSome?_cons, hl, Option.bind_some, hid]
    exact hid.symm

theorem declared_append (before ls : List Line) (l : Line) :
    declared before (ls ++ [l]) = declared before ls ++
      (l.declaration?.map fun d =>
        { d with parent := effectiveParent (ls.reverse ++ before) d }).toList := by
  induction ls generalizing before with
  | nil => simp [declared]
  | cons k ls ih => simp [declared, ih]

/-- In a history in which every declaration counts, those kept are those of the lines. -/
theorem kept_eq_declared {h : List Line} (hc : Clean h) : kept h = declared [] h.reverse := by
  induction h with
  | nil => rfl
  | cons l before ih =>
    obtain ⟨⟨hfirst, -⟩, hb⟩ := hc
    rw [kept, List.reverse_cons, declared_append, ih hb, placed?, hfirst, List.reverse_reverse,
      List.append_nil]
    simp only [effectiveParent, enclosing?_eq hb]

end History

end ArchDiagram.Source
