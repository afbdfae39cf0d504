import ArchDiagram.Proofs.History

/-!
Blocks are matched braces. Which lines stand on the block stack depends on the text of the lines
alone, not on whether their declarations are accepted; faults about braces come from the matching
and from nowhere else.
-/

namespace ArchDiagram.Source

open Text

/-- The faults that braces cause. -/
def Fault.isBrace : Fault → Bool
  | .unmatchedBrace | .unclosedBlock _ => true
  | _ => false

def Fault.isUnclosed : Fault → Bool
  | .unclosedBlock _ => true
  | _ => false

/-- One step of plain brace matching: an opening line is pushed, a closing line pops. -/
def matchBrace (stack : List Line) (l : Line) : List Line :=
  if l.opens then l :: stack else if l.closes then stack.tail else stack

/-- The lines whose blocks are open after the given ones, the innermost first. -/
def openLines (ls : List Line) : List Line :=
  ls.foldl matchBrace []

/-- The closing lines that meet an empty stack. -/
def unmatchedLines (stack : List Line) : List Line → List Line
  | [] => []
  | l :: rest =>
    (if l.closes && stack.isEmpty then [l] else []) ++ unmatchedLines (matchBrace stack l) rest

/-- What the lines that were fed say about the blocks of a scanner and the faults about them. -/
structure BlockReading (defaultTitle : String) (ls : List Line) (s : Scanner) : Prop where
  /-- The opening lines on the stack are those of plain brace matching. -/
  opening : s.blocks.map (·.line) = (openLines ls).map (·.number)
  /-- A slot carries the identifier that its line was the first to declare, if any. -/
  slots : s.blocks = History.openBlocks ls.reverse
  /-- An accepted declaration opens a block exactly when its whole line does. -/
  flags : ∀ l ∈ ls, ∀ d, l.declaration? = some d → d.opensBlock = opensBlock l.text
  /-- A kept declaration has its own parent, or else the identifier in the nearest slot that
  carries one. -/
  parents : s.declarations = History.kept ls.reverse
  /-- Closing braces are unmatched where the stack is empty. -/
  unmatched : s.errors.filter (fun e => e.fault = .unmatchedBrace) =
    (unmatchedLines [] ls).map fun l => ⟨l.number, .unmatchedBrace⟩
  /-- The first end of the scan finds the blocks that are still open, at their opening lines. -/
  unclosed : ((s.finish defaultTitle).2.errors.filter (·.fault.isUnclosed)).Perm
    (s.blocks.map fun b => ⟨b.line, .unclosedBlock b.container⟩)

theorem isBrace_of_readHead {keyword : String} {rest : List Char} {f : Fault}
    (h : readHead keyword rest = .error f) : f.isBrace = false := by
  unfold readHead at h
  dsimp only at h
  repeat' split at h
  all_goals cases h <;> rfl

theorem isBrace_of_readCoordinate {key owner : String} {value : List Char} {f : Fault}
    (h : readCoordinate key owner value = .error (.rejected f)) : f.isBrace = false := by
  unfold readCoordinate at h
  dsimp only at h
  repeat' split at h
  all_goals cases h <;> rfl

theorem isBrace_of_apply {owner : String} {b : Bool} {a : Attributes} {token : List Char}
    {f : Fault} (h : a.apply owner b token = .error (.rejected f)) : f.isBrace = false := by
  unfold Attributes.apply at h
  split at h
  · cases h
    rfl
  · rename_i key value _
    dsimp only at h
    split at h
    · cases h
      rfl
    · split at h
      · split at h
        · cases h
        · cases hr : readCoordinate (String.ofList key) owner value with
          | ok v =>
            rw [hr] at h
            cases h
          | error e =>
            rw [hr] at h
            cases h
            exact isBrace_of_readCoordinate hr
      · cases h
      · split at h <;> cases h
        rfl
      · cases h

theorem isBrace_of_applyAll {owner : String} {b : Bool} {tokens : List (List Char)}
    {a : Attributes} {f : Fault} (h : a.applyAll owner b tokens = .error (.rejected f)) :
    f.isBrace = false := by
  induction tokens generalizing a with
  | nil => cases h
  | cons token tokens ih =>
    unfold Attributes.applyAll at h
    split at h
    · exact ih h
    · rename_i e he
      cases h
      exact isBrace_of_apply he

theorem isBrace_of_read_declaration {l : Line} {f : Fault}
    (h : Declaration.read l = .error (.rejected f)) : f.isBrace = false := by
  unfold Declaration.read at h
  split at h
  · cases h
  · dsimp only at h
    split at h
    · rename_i hf
      cases h
      exact isBrace_of_readHead hf
    · split at h
      · cases h
        rfl
      · split at h
        · rename_i e he
          cases h
          exact isBrace_of_applyAll he
        · cases h

theorem isBrace_of_read_link {l : Line} {f : Fault} (h : LinkStatement.read l = .error f) :
    f.isBrace = false := by
  have ends {which : LinkEnd} {arrow : Arrow} {cs : List Char} {e : Fault}
      (he : readEnd which arrow cs = .error e) : e.isBrace = false := by
    unfold readEnd at he
    dsimp only at he
    repeat' split at he
    all_goals cases he <;> rfl
  have labels {source target : String} {arrow : Arrow} {cs : List Char} {e : Fault}
      (he : readLinkLabel source arrow target cs = .error e) : e.isBrace = false := by
    unfold readLinkLabel at he
    repeat' split at he
    all_goals cases he <;> rfl
  unfold LinkStatement.read at h
  split at h
  · rcases bind_eq_error_iff.mp h with h | ⟨source, -, h⟩
    · exact ends h
    · dsimp only at h
      split at h
      · rcases bind_eq_error_iff.mp h with h | ⟨target, -, h⟩
        · exact ends h
        · cases h
      · rcases bind_eq_error_iff.mp h with h | ⟨target, -, h⟩
        · exact ends h
        · rcases bind_eq_error_iff.mp h with h | ⟨label, -, h⟩
          · exact labels h
          · cases h
  · cases h
    rfl

theorem isBrace_of_readTitle {l : Line} {f : Fault} (h : readTitle l = .error f) :
    f.isBrace = false := by
  unfold readTitle at h
  dsimp only at h
  repeat' split at h
  all_goals cases h <;> rfl

namespace History

/-- Only a closing line has a fault about braces. -/
theorem isBrace_of_fault? {before : List Line} {l : Line} {f : Fault}
    (hk : l.kind ≠ .blockEnd) (h : fault? before l = some f) : f.isBrace = false := by
  unfold fault? at h
  split at h
  · cases h
  · cases h
  · split at h
    · obtain ⟨first, -, rfl⟩ := Option.map_eq_some_iff.mp h
      rfl
    · rename_i fault hr
      cases h
      exact isBrace_of_read_declaration hr
    · cases h
  · split at h
    · cases h
    · rename_i fault hr
      cases h
      exact isBrace_of_read_link hr
  · split at h
    · obtain ⟨first, -, rfl⟩ := Option.map_eq_some_iff.mp h
      rfl
    · rename_i fault hr
      cases h
      exact isBrace_of_readTitle hr
  · contradiction
  · cases h
    rfl

/-- A line has a fault about braces exactly when it closes a block and none is open. -/
theorem filter_isBrace_fault? (before : List Line) (l : Line) :
    (fault? before l).filter Fault.isBrace =
      if l.closes && (openBlocks before).isEmpty then some .unmatchedBrace else none := by
  by_cases hk : l.kind = .blockEnd
  · by_cases he : openBlocks before = []
    · simp [fault?, Line.closes, hk, he, Fault.isBrace]
    · simp [fault?, Line.closes, hk, he]
  · -- any other line has faults of its own kind
    have hc : l.closes = false := by simp [Line.closes, hk]
    cases hf : fault? before l with
    | none => simp [hc]
    | some f => simp [hc, isBrace_of_fault? hk hf]

theorem map_line_openBlocks (h : List Line) :
    (openBlocks h).map (·.line) = (openLines h.reverse).map (·.number) := by
  induction h with
  | nil => rfl
  | cons l before ih =>
    -- both sides take the latest line last
    have hsnoc : openLines (l :: before).reverse = matchBrace (openLines before.reverse) l := by
      simp [openLines]
    rw [hsnoc, openBlocks, matchBrace]
    split
    · simp [ih]
    · split
      · rw [List.map_tail, List.map_tail, ih]
      · exact ih

theorem isEmpty_openBlocks (h : List Line) :
    (openBlocks h).isEmpty = (openLines h.reverse).isEmpty := by
  have hlen := congrArg List.length (map_line_openBlocks h)
  rw [List.length_map, List.length_map] at hlen
  rw [Bool.eq_iff_iff, List.isEmpty_iff_length_eq_zero, List.isEmpty_iff_length_eq_zero, hlen]

theorem unmatchedLines_append (stack ls : List Line) (l : Line) :
    unmatchedLines stack (ls ++ [l]) = unmatchedLines stack ls ++
      if l.closes && (ls.foldl matchBrace stack).isEmpty then [l] else [] := by
  induction ls generalizing stack with
  | nil => simp [unmatchedLines]
  | cons k ls ih => simp [unmatchedLines, ih]

/-- The faults about braces that a history holds. -/
theorem filter_isBrace_diagnostics (h : List Line) :
    (diagnostics h).filter (·.fault.isBrace) =
      (unmatchedLines [] h.reverse).map fun l => ⟨l.number, .unmatchedBrace⟩ := by
  induction h with
  | nil => rfl
  | cons l before ih =>
    have hlast : ((fault? before l).map (⟨l.number, ·⟩ : Fault → Diagnostic)).toList.filter
        (·.fault.isBrace) =
          (((fault? before l).filter Fault.isBrace).map (⟨l.number, ·⟩)).toList := by
      cases fault? before l with
      | none => rfl
      | some f => cases hf : f.isBrace <;> simp [Option.filter, hf]
    rw [diagnostics, List.filter_append, ih, List.reverse_cons, unmatchedLines_append,
      List.map_append, hlast, filter_isBrace_fault?, isEmpty_openBlocks, openLines]
    congr 1
    split <;> rfl

theorem isBrace_of_mem_linkDiagnostics {known : List String} {links : List LinkStatement}
    {e : Diagnostic} (h : e ∈ linkDiagnostics known links) : e.fault.isBrace = false := by
  obtain ⟨l, -, h⟩ := List.mem_flatMap.mp h
  obtain ⟨f, h, rfl⟩ := List.mem_map.mp h
  unfold endFaults at h
  split at h <;> split at h <;> simp at h
  · subst h
    rfl
  · subst h
    rfl
  · rcases h with rfl | rfl <;> rfl

theorem isBrace_of_mem_parentDiagnostics {ds : List Declaration} {e : Diagnostic}
    (h : e ∈ parentDiagnostics ds) : e.fault.isBrace = false := by
  obtain ⟨d, -, h⟩ := List.mem_filterMap.mp h
  obtain ⟨f, hf, rfl⟩ := Option.map_eq_some_iff.mp h
  obtain ⟨p, -, hp⟩ := Option.bind_eq_some_iff.mp hf
  repeat' split at hp
  all_goals cases hp <;> rfl

theorem isBrace_of_isUnclosed {f : Fault} (h : f.isUnclosed = true) : f.isBrace = true := by
  cases f <;> simp_all [Fault.isUnclosed, Fault.isBrace]

/-- The diagnostics of an outcome are those of the closed scan in another order. -/
theorem perm_errors_finish (defaultTitle : String) (s : Scanner) :
    (s.finish defaultTitle).2.errors.Perm s.close.errors := by
  change (s.close.outcome defaultTitle).errors.Perm s.close.errors
  unfold Scanner.outcome
  split
  · rename_i h
    rw [List.isEmpty_iff.mp h]
    exact .nil
  · exact List.mergeSort_perm _ _

theorem filter_isUnclosed_close (h : List Line) :
    (scanner h).close.errors.filter (·.fault.isUnclosed) = (scanner h).unclosed := by
  -- the lines report no unclosed block, the end of the scan reports them all, references none
  have hscan : (diagnostics h).filter (·.fault.isUnclosed) = [] := by
    rw [List.filter_eq_nil_iff]
    intro e he hu
    have hb : e ∈ (diagnostics h).filter (·.fault.isBrace) :=
      List.mem_filter.mpr ⟨he, isBrace_of_isUnclosed hu⟩
    rw [filter_isBrace_diagnostics] at hb
    obtain ⟨l, -, rfl⟩ := List.mem_map.mp hb
    cases hu
  have hopen : (scanner h).unclosed.filter (·.fault.isUnclosed) = (scanner h).unclosed := by
    rw [List.filter_eq_self]
    intro e he
    obtain ⟨b, -, rfl⟩ := List.mem_map.mp he
    rfl
  have hrefs : (scanner h).unresolved.filter (·.fault.isUnclosed) = [] := by
    rw [List.filter_eq_nil_iff]
    intro e he hu
    have hb : e.fault.isBrace = false := by
      rcases List.mem_append.mp he with he | he
      · exact isBrace_of_mem_linkDiagnostics he
      · exact isBrace_of_mem_parentDiagnostics he
    rw [isBrace_of_isUnclosed hu] at hb
    cases hb
  change (diagnostics h ++ (scanner h).unclosed ++ (scanner h).unresolved).filter _ = _
  rw [List.filter_append, List.filter_append, hscan, hopen, hrefs]
  simp

theorem filter_unmatchedBrace_diagnostics (h : List Line) :
    (diagnostics h).filter (fun e => e.fault = .unmatchedBrace) =
      (unmatchedLines [] h.reverse).map fun l => ⟨l.number, .unmatchedBrace⟩ := by
  rw [← filter_isBrace_diagnostics]
  apply List.filter_congr
  intro e he
  by_cases hb : e.fault.isBrace = true
  · have hm : e ∈ (diagnostics h).filter (·.fault.isBrace) := List.mem_filter.mpr ⟨he, hb⟩
    rw [filter_isBrace_diagnostics] at hm
    obtain ⟨l, -, rfl⟩ := List.mem_map.mp hm
    rfl
  · have hne : e.fault ≠ .unmatchedBrace := by
      intro hu
      rw [hu] at hb
      exact hb rfl
    simp [hb, hne]

end History

/-- After any lines of any numbers and texts, the blocks of the scanner are those of plain brace
matching, whether or not the declarations on these lines are accepted. -/
theorem blocks_follow_braces (defaultTitle : String) (raws : List (Int × List Char)) :
    ∃ s, Scanner.feedAll {} (raws.map fun r => Line.ofText r.1 r.2) = .ok s ∧
      BlockReading defaultTitle (raws.map fun r => Line.ofText r.1 r.2) s := by
  have hclass : ∀ l ∈ raws.map fun r => Line.ofText r.1 r.2, l.Classified := by
    intro l hl
    obtain ⟨r, -, rfl⟩ := List.mem_map.mp hl
    exact Line.classified_ofText _ _
  generalize raws.map (fun r => Line.ofText r.1 r.2) = ls at hclass ⊢
  have hrun := History.feedAll_scanner hclass []
  rw [List.append_nil] at hrun
  refine ⟨_, hrun, ?_, rfl, ?_, rfl, ?_, ?_⟩
  · have hlines := History.map_line_openBlocks ls.reverse
    rwa [List.reverse_reverse] at hlines
  · -- the flag is read after the label, the slot is taken by the whole line
    intro l hl d hd
    obtain ⟨hk, hr⟩ := History.declaration?_eq_some_iff.mp hd
    exact Declaration.opensBlock_of_read (hclass l hl) hk hr
  · have hfaults := History.filter_unmatchedBrace_diagnostics ls.reverse
    rwa [List.reverse_reverse] at hfaults
  · apply ((History.perm_errors_finish defaultTitle _).filter _).trans
    rw [History.filter_isUnclosed_close]
    exact (List.reverse_perm _).map _

end ArchDiagram.Source
