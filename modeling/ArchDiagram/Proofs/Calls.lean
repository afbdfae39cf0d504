import ArchDiagram.Proofs.History
import ArchDiagram.Proofs.Outcome
import Mathlib.Data.List.Nodup
import Mathlib.Logic.Function.Iterate

/-!
Calls on a scanner, in any order and number. Lines count until the scan is finished for the first
time; each end after that only checks the references once more. What a scanner holds is therefore
decided by the lines before the first end and by the number of ends.
-/

namespace ArchDiagram.Source

open Text

/-- A call on a scanner: a line of any number and text is fed, or the scan is finished. -/
inductive Call where
  | feed (number : Int) (text : List Char)
  | finish
  deriving DecidableEq

namespace Scanner

/-- The scanner after a call; a line that is not taken leaves it as it was. -/
def perform (defaultTitle : String) (s : Scanner) : Call → Scanner
  | .feed number text =>
    match s.feed (.ofText number text) with
    | .ok t => t
    | .error _ => s
  | .finish => (s.finish defaultTitle).1

/-- The scanner after calls on a new one. -/
def after (defaultTitle : String) (calls : List Call) : Scanner :=
  calls.foldl (perform defaultTitle) {}

end Scanner

/-- The calls before the first end of the scan. -/
def beforeFinish (calls : List Call) : List Call :=
  calls.takeWhile (· ≠ .finish)

/-- The lines that are fed before the first end of the scan. -/
def linesBeforeFinish : List Call → List Line
  | [] => []
  | .feed number text :: calls => .ofText number text :: linesBeforeFinish calls
  | .finish :: _ => []

theorem exists_ofText_of_mem {calls : List Call} {l : Line} (h : l ∈ linesBeforeFinish calls) :
    ∃ number text, l = .ofText number text := by
  induction calls with
  | nil => cases h
  | cons call calls ih =>
    cases call with
    | feed number text =>
      rcases List.mem_cons.mp h with rfl | h
      · exact ⟨number, text, rfl⟩
      · exact ih h
    | finish => cases h

/-- Only containers open blocks. -/
theorem Declaration.isContainer_of_read {l : Line} {d : Declaration}
    (h : Declaration.read l = .ok d) (ho : d.opensBlock = true) : d.isContainer = true := by
  obtain ⟨_, _, _, _, _, _, _, _, hcontainer, _, rfl⟩ := read_eq_ok_iff.mp h
  simp [Declaration.isContainer, hcontainer ho]

namespace History

/-- The table of identifiers: a line enters its declaration, unless the identifier is there. -/
def index : List Line → String → Option Declaration
  | [], _ => none
  | l :: before, id =>
    (index before id).or ((l.declaration?.filter (·.id == id)).map fun d =>
      { d with parent := d.parent <|> enclosing? before })

/-- Looking among the kept declarations is looking into the table. -/
theorem find?_kept (h : List Line) (id : String) :
    (kept h).find? (·.id == id) = index h id := by
  induction h with
  | nil => rfl
  | cons l before ih =>
    rw [kept, List.find?_append, index, ih]
    cases hi : index before id with
    | some d => rfl
    | none =>
      have hbefore := (find?_kept_eq_none_iff before id).mp (ih.trans hi)
      rw [Option.none_or, Option.none_or]
      cases hd : l.declaration? with
      | none => simp [placed?, first?, hd]
      | some d =>
        by_cases hid : d.id = id
        · subst hid
          have hfirst : first? before l = some d := first?_eq_some_iff.mpr ⟨hd, hbefore⟩
          simp [placed?, hfirst, Option.filter_some]
        · -- a declaration of another identifier is found by neither
          have hother : (placed? before l).toList.find? (·.id == id) = none := by
            rw [List.find?_eq_none]
            intro e he
            obtain ⟨e₀, he₀, rfl⟩ := Option.map_eq_some_iff.mp (Option.mem_toList.mp he)
            rw [(first?_eq_some_iff.mp he₀).1, Option.some.injEq] at hd
            simpa [hd] using hid
          simp [hother, hid, Option.filter_some]

/-- The table holds the kept declarations, each under its identifier. -/
theorem mem_kept_iff (h : List Line) (d : Declaration) :
    d ∈ kept h ↔ index h d.id = some d := by
  rw [← find?_kept]
  constructor
  · intro hd
    cases hf : (kept h).find? (·.id == d.id) with
    | none =>
      have hnot := List.find?_eq_none.mp hf d hd
      simp at hnot
    | some e =>
      have hid : e.id = d.id := by simpa using List.find?_some hf
      rw [List.inj_on_of_nodup_map (nodup_kept h) (List.mem_of_find?_eq_some hf) hd hid]
  · exact List.mem_of_find?_eq_some

/-- A slot that carries an identifier is that of a kept container. -/
theorem kept_of_mem_openBlocks {h : List Line} (hl : ∀ l ∈ h, l.Classified) :
    ∀ b ∈ openBlocks h, ∀ id ∈ b.container,
      ∃ d ∈ kept h, d.isContainer = true ∧ d.id = id := by
  induction h with
  | nil => simp [openBlocks]
  | cons l before ih =>
    have hbefore := ih fun k hk => hl k (by simp [hk])
    -- the slots of earlier lines are those of declarations that stay
    have hold (b : Block) (hb : b ∈ openBlocks before) (id : String) (hid : id ∈ b.container) :
        ∃ d ∈ kept (l :: before), d.isContainer = true ∧ d.id = id := by
      obtain ⟨d, hd, hrest⟩ := hbefore b hb id hid
      exact ⟨d, List.mem_append_left _ hd, hrest⟩
    intro b hb id hid
    rw [openBlocks] at hb
    split at hb
    · rename_i ho
      rcases List.mem_cons.mp hb with rfl | hb
      · obtain ⟨d, hd, rfl⟩ := Option.map_eq_some_iff.mp hid
        obtain ⟨hk, hr⟩ := declaration?_eq_some_iff.mp (first?_eq_some_iff.mp hd).1
        have hopens : d.opensBlock = true := by
          rw [Declaration.opensBlock_of_read (hl l (by simp)) hk hr]
          simpa [Line.opens, hk] using ho
        have hcontainer := Declaration.isContainer_of_read hr hopens
        refine ⟨{ d with parent := d.parent <|> enclosing? before }, ?_, hcontainer, rfl⟩
        rw [kept, placed?, hd]
        simp
      · exact hold b hb id hid
    · split at hb
      · exact hold b (List.mem_of_mem_tail hb) id hid
      · exact hold b hb id hid

end History

namespace Scanner

variable (defaultTitle : String)

theorem perform_of_done {s : Scanner} (hs : s.phase = .done) (number : Int) (text : List Char) :
    s.feed (.ofText number text) = .error .alreadyFinished ∧
      s.perform defaultTitle (.feed number text) = s := by
  have hfeed : s.feed (.ofText number text) = .error .alreadyFinished := by simp [feed, hs]
  exact ⟨hfeed, by simp [perform, hfeed]⟩

/-- After the end only further ends count. -/
theorem foldl_perform_of_done {s : Scanner} (hs : s.phase = .done) (calls : List Call) :
    calls.foldl (perform defaultTitle) s = close^[calls.count .finish] s := by
  induction calls generalizing s with
  | nil => rfl
  | cons call calls ih =>
    cases call with
    | feed number text =>
      rw [List.foldl_cons, (perform_of_done defaultTitle hs number text).2, ih hs,
        List.count_cons_of_ne (by simp)]
    | finish =>
      rw [List.foldl_cons, List.count_cons_self, Function.iterate_succ_apply]
      exact ih rfl

theorem perform_scanner (h : List Line) (number : Int) (text : List Char) :
    (History.scanner h).perform defaultTitle (.feed number text) =
      History.scanner (.ofText number text :: h) := by
  simp [perform, History.feed_scanner (Line.classified_ofText number text)]

/-- A run, from the scanner of any history: the lines before the first end are read, and then each
end closes the scan. -/
theorem foldl_perform_scanner (h : List Line) (calls : List Call) :
    calls.foldl (perform defaultTitle) (History.scanner h) =
      close^[calls.count .finish] (History.scanner ((linesBeforeFinish calls).reverse ++ h)) := by
  induction calls generalizing h with
  | nil => rfl
  | cons call calls ih =>
    cases call with
    | feed number text =>
      rw [List.foldl_cons, perform_scanner, ih, List.count_cons_of_ne (by simp)]
      simp [linesBeforeFinish]
    | finish =>
      rw [List.foldl_cons, List.count_cons_self, Function.iterate_succ_apply]
      exact foldl_perform_of_done defaultTitle rfl calls

theorem after_eq (calls : List Call) :
    after defaultTitle calls =
      close^[calls.count .finish] (History.scanner (linesBeforeFinish calls).reverse) := by
  have hrun := foldl_perform_scanner defaultTitle [] calls
  rwa [List.append_nil] at hrun

theorem after_concat (calls : List Call) (call : Call) :
    after defaultTitle (calls ++ [call]) =
      (after defaultTitle calls).perform defaultTitle call := by
  simp [after]

theorem iterate_close (s : Scanner) (k : Nat) :
    (close^[k] s).declarations = s.declarations ∧ (close^[k] s).links = s.links ∧
      (close^[k] s).title = s.title := by
  induction k with
  | zero => exact ⟨rfl, rfl, rfl⟩
  | succ k ih =>
    rw [Function.iterate_succ_apply']
    exact ih

/-- The first end reports the blocks that are still open, and every end what is wrong with the
references. -/
theorem errors_iterate_close (s : Scanner) (k : Nat) :
    (close^[k + 1] s).errors =
      s.errors ++ s.unclosed ++ (List.replicate (k + 1) s.unresolved).flatten := by
  induction k with
  | zero => simp [close]
  | succ k ih =>
    -- the first end has emptied the stack, and no end changes what references lead to
    have hlast : (close^[k + 1] s).unclosed = [] := by
      rw [Function.iterate_succ_apply']
      rfl
    have hrefs : (close^[k + 1] s).unresolved = s.unresolved := by
      obtain ⟨hd, hk, -⟩ := iterate_close s (k + 1)
      rw [unresolved, unresolved, declaredIds, declaredIds, hd, hk]
    rw [Function.iterate_succ_apply' close (k + 1) s, close, ih, hlast, hrefs,
      List.replicate_succ' (n := k + 1), List.flatten_append]
    simp

theorem closed_after {calls : List Call} (h : .finish ∈ calls) :
    (after defaultTitle calls).phase = .done ∧ (after defaultTitle calls).blocks = [] := by
  obtain ⟨k, hk⟩ : ∃ k, calls.count .finish = k + 1 :=
    Nat.exists_eq_add_one.mpr (List.count_pos_iff.mpr h)
  rw [after_eq, hk, Function.iterate_succ_apply']
  exact ⟨rfl, rfl⟩

theorem after_of_not_mem {calls : List Call} (h : .finish ∉ calls) :
    after defaultTitle calls = History.scanner (linesBeforeFinish calls).reverse := by
  rw [after_eq, List.count_eq_zero_of_not_mem h]
  rfl

/-- The scanner before the first end. -/
theorem after_beforeFinish (calls : List Call) :
    after defaultTitle (beforeFinish calls) =
      History.scanner (linesBeforeFinish calls).reverse := by
  have hnone : .finish ∉ beforeFinish calls := by
    intro h
    simpa using List.all_eq_true.mp List.all_takeWhile _ h
  have hlines : linesBeforeFinish (beforeFinish calls) = linesBeforeFinish calls := by
    clear hnone
    induction calls with
    | nil => rfl
    | cons call calls ih =>
      cases call with
      | feed number text => simpa [beforeFinish, linesBeforeFinish] using ih
      | finish => simp [beforeFinish, linesBeforeFinish]
  rw [after_of_not_mem defaultTitle hnone, hlines]

/-- One call: diagnostics are only added at the end, and a title stays. -/
theorem grows_concat (calls : List Call) (call : Call) :
    (after defaultTitle calls).errors <+: (after defaultTitle (calls ++ [call])).errors ∧
      ∀ t, (after defaultTitle calls).title = some t →
        (after defaultTitle (calls ++ [call])).title = some t := by
  rw [after_concat]
  cases call with
  | feed number text =>
    by_cases h : .finish ∈ calls
    · rw [(perform_of_done defaultTitle (closed_after defaultTitle h).1 number text).2]
      exact ⟨List.prefix_rfl, fun t ht => ht⟩
    · rw [after_of_not_mem defaultTitle h, perform_scanner]
      refine ⟨List.prefix_append _ _, fun t ht => ?_⟩
      change History.title? (.ofText number text :: _) = some t
      rw [History.title?_cons, show History.title? _ = some t from ht, Option.some_or]
  | finish =>
    refine ⟨?_, fun t ht => ht⟩
    change (after defaultTitle calls).errors <+:
      (after defaultTitle calls).errors ++ (after defaultTitle calls).unclosed ++
        (after defaultTitle calls).unresolved
    rw [List.append_assoc]
    exact List.prefix_append _ _

/-- Any number of calls. -/
theorem grows_append (calls more : List Call) :
    (after defaultTitle calls).errors <+: (after defaultTitle (calls ++ more)).errors ∧
      ∀ t, (after defaultTitle calls).title = some t →
        (after defaultTitle (calls ++ more)).title = some t := by
  induction more generalizing calls with
  | nil =>
    rw [List.append_nil]
    exact ⟨List.prefix_rfl, fun t ht => ht⟩
  | cons call more ih =>
    obtain ⟨herrors, htitle⟩ := grows_concat defaultTitle calls call
    obtain ⟨herrors', htitle'⟩ := ih (calls ++ [call])
    rw [List.append_assoc] at herrors' htitle'
    exact ⟨herrors.trans herrors', fun t ht => htitle' t (htitle t ht)⟩

/-- A later end closes what the first one closed once more for every end between them. -/
theorem close_after (calls : List Call) :
    (after defaultTitle calls).close =
      close^[calls.count .finish + 1] (after defaultTitle (beforeFinish calls)) := by
  rw [after_eq, after_beforeFinish, Function.iterate_succ_apply']

theorem document_iterate_close (s : Scanner) (k : Nat) :
    (close^[k] s).document defaultTitle = s.document defaultTitle := by
  obtain ⟨hdeclarations, hlinks, htitle⟩ := iterate_close s k
  rw [document, document, declaredIds, declaredIds, hdeclarations, hlinks, htitle]

/-- Checking the references several times finds something exactly when checking them once does. -/
theorem errors_iterate_close_eq_nil_iff (s : Scanner) (k : Nat) :
    (close^[k + 1] s).errors = [] ↔ s.close.errors = [] := by
  have hrefs : (List.replicate (k + 1) s.unresolved).flatten = [] ↔ s.unresolved = [] := by
    rw [List.flatten_eq_nil_iff]
    simp
  rw [errors_iterate_close, List.append_eq_nil_iff, hrefs, ← List.append_eq_nil_iff]
  rfl

end Scanner

/-- What is known of a scanner after any calls. -/
structure RunInvariant (defaultTitle : String) (calls : List Call) (s : Scanner) : Prop where
  /-- Kept declarations have different identifiers. -/
  distinct : (s.declarations.map (·.id)).Nodup
  /-- An identifier is looked up in the table that its first declaration has entered. -/
  lookup : ∀ id, s.declarations.find? (·.id == id) =
    History.index (linesBeforeFinish calls).reverse id
  /-- The table holds the kept declarations and nothing else. -/
  table : ∀ d, d ∈ s.declarations ↔
    History.index (linesBeforeFinish calls).reverse d.id = some d
  /-- An identifier on the block stack is that of a kept container. -/
  slots : ∀ b ∈ s.blocks, ∀ id ∈ b.container,
    ∃ d ∈ s.declarations, d.isContainer = true ∧ d.id = id
  /-- The title and its line are those of the first title line that can be read. -/
  title : s.title = (linesBeforeFinish calls).findSome? Line.title?
  /-- A title stays, with its line. -/
  title_stays : ∀ more t, s.title = some t →
    (Scanner.after defaultTitle (calls ++ more)).title = some t
  /-- Diagnostics are only added at the end. -/
  errors_grow : ∀ more, s.errors <+: (Scanner.after defaultTitle (calls ++ more)).errors
  /-- Every line is taken before the first end. -/
  taken : .finish ∉ calls → ∀ number text,
    s.feed (.ofText number text) = .ok (Scanner.after defaultTitle (calls ++ [.feed number text]))
  /-- No line is taken after it, and the scanner stays as it is. -/
  refused : .finish ∈ calls → ∀ number text,
    s.feed (.ofText number text) = .error .alreadyFinished ∧
      Scanner.after defaultTitle (calls ++ [.feed number text]) = s
  /-- The next end gives the document of the first end, if that gave one. -/
  success : ∀ d, (s.finish defaultTitle).2 = .success d ↔
    ((Scanner.after defaultTitle (beforeFinish calls)).finish defaultTitle).2 = .success d
  /-- Otherwise it gives, by line, the diagnostics of the lines, the blocks that were open at the
  first end, and what is wrong with the references once for every end. -/
  invalid : ∀ es, (s.finish defaultTitle).2 = .invalid es →
    ByLine ((Scanner.after defaultTitle (beforeFinish calls)).errors ++
      (Scanner.after defaultTitle (beforeFinish calls)).unclosed ++
        (List.replicate (calls.count .finish + 1)
          (Scanner.after defaultTitle (beforeFinish calls)).unresolved).flatten) es

/-- After any calls, the scanner holds what the lines before the first end say, and finishes as it
did the first time. -/
theorem runInvariant_after (defaultTitle : String) (calls : List Call) :
    RunInvariant defaultTitle calls (Scanner.after defaultTitle calls) := by
  have hclass : ∀ l ∈ (linesBeforeFinish calls).reverse, l.Classified := by
    intro l hl
    obtain ⟨number, text, rfl⟩ := exists_ofText_of_mem (List.mem_reverse.mp hl)
    exact Line.classified_ofText number text
  have hrun := Scanner.after_eq defaultTitle calls
  obtain ⟨hdeclarations, -, htitle⟩ := Scanner.iterate_close
    (History.scanner (linesBeforeFinish calls).reverse) (calls.count .finish)
  rw [← hrun] at hdeclarations htitle
  have hclose := Scanner.close_after defaultTitle calls
  exact {
    distinct := hdeclarations ▸ History.nodup_kept _
    lookup := fun id => hdeclarations ▸ History.find?_kept _ id
    table := fun d => hdeclarations ▸ History.mem_kept_iff _ d
    slots := by
      intro b hb id hid
      by_cases h : .finish ∈ calls
      · -- the first end has cleared the stack
        rw [(Scanner.closed_after defaultTitle h).2] at hb
        cases hb
      · rw [Scanner.after_of_not_mem defaultTitle h] at hb ⊢
        exact History.kept_of_mem_openBlocks hclass b hb id hid
    title := by
      rw [htitle]
      change (linesBeforeFinish calls).reverse.reverse.findSome? Line.title? = _
      rw [List.reverse_reverse]
    title_stays := fun more t ht => (Scanner.grows_append defaultTitle calls more).2 t ht
    errors_grow := fun more => (Scanner.grows_append defaultTitle calls more).1
    taken := by
      intro h number text
      rw [Scanner.after_concat, Scanner.after_of_not_mem defaultTitle h, Scanner.perform_scanner]
      exact History.feed_scanner (Line.classified_ofText number text) _
    refused := by
      intro h number text
      rw [Scanner.after_concat]
      exact Scanner.perform_of_done defaultTitle (Scanner.closed_after defaultTitle h).1 number text
    success := by
      intro d
      change (Scanner.after defaultTitle calls).close.outcome defaultTitle = .success d ↔
        (Scanner.after defaultTitle (beforeFinish calls)).close.outcome defaultTitle = .success d
      rw [Scanner.outcome_eq_success_iff, Scanner.outcome_eq_success_iff, hclose,
        Scanner.errors_iterate_close_eq_nil_iff, Scanner.document_iterate_close]
      rfl
    invalid := by
      intro es hes
      change (Scanner.after defaultTitle calls).close.outcome defaultTitle = .invalid es at hes
      obtain ⟨-, rfl⟩ := Scanner.outcome_eq_invalid_iff.mp hes
      rw [← Scanner.errors_iterate_close, ← hclose]
      exact byLine_mergeSort _ }

end ArchDiagram.Source
