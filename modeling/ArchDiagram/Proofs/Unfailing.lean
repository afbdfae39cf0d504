import ArchDiagram.Proofs.Ancestry
import ArchDiagram.Proofs.History
import ArchDiagram.Proofs.Outcome
import Mathlib.Data.Finset.Card

/-!
Reading never fails. Each operation that may have no result is kept from its bad inputs by an
earlier one: lines are sorted before they are read, a number has its form before its value, lines
are fed before the end, and the walk up from a container passes no place three times.
-/

namespace ArchDiagram

/-- A walk ends within a bound that is two more than a measure of its places, when the measure falls
with every step that is not the last. -/
theorem isSome_walk?_of_measure {σ β : Type} {step : σ → σ ⊕ β} {P : σ → Prop} {μ : σ → Nat}
    (hkeep : ∀ s s', P s → step s = .inl s' → P s')
    (hfall : ∀ s s' s'', P s → step s = .inl s' → step s' = .inl s'' → μ s' < μ s) {n : Nat} {s : σ}
    (hs : P s) (hn : μ s + 2 ≤ n) : (walk? step n s).isSome = true := by
  induction n generalizing s with
  | zero => omega
  | succ n ih =>
    rw [walk?]
    cases hstep : step s with
    | inr => rfl
    | inl s' =>
      cases hnext : step s' with
      | inr =>
        obtain ⟨m, rfl⟩ : ∃ m, n = m + 1 := ⟨n - 1, by omega⟩
        simp only [walk?, hnext, Option.isSome_some]
      | inl s'' =>
        have hlt := hfall s s' s'' hs hstep hnext
        exact ih (hkeep s s' hs hstep) (by omega)

/-- Passing one of the places leaves fewer of them. -/
theorem card_sdiff_cons_lt {ids seen : List String} {id : String} (hid : id ∈ ids)
    (hseen : id ∉ seen) :
    (ids.toFinset \ (id :: seen).toFinset).card < (ids.toFinset \ seen.toFinset).card := by
  rw [List.toFinset_cons, Finset.sdiff_insert]
  exact Finset.card_erase_lt_of_mem (by simp [hid, hseen])

namespace Source

open Text

/-- A walk up goes on to a parent that is neither the start nor a place it has left. -/
theorem Ascent.step_eq_inl_iff {ds : List Declaration} {start : String} {a a' : Ascent} :
    Ascent.step ds start a = .inl a' ↔
      ∃ c p, a.current = some c ∧ c.parent = some p ∧ p ≠ start ∧ p ∉ a.seen ∧
        a' = ⟨container? ds p, c.id :: a.seen⟩ := by
  unfold Ascent.step
  constructor
  · intro h
    cases hc : a.current with
    | none => simp [hc] at h
    | some c =>
      cases hp : c.parent with
      | none => simp [hc, hp] at h
      | some p =>
        by_cases hstart : p = start
        · simp [hc, hp, hstart] at h
        · by_cases hseen : p ∈ a.seen
          · simp [hc, hp, hstart, hseen] at h
          · simp only [hc, hp, hstart, if_false, List.contains_eq_mem, hseen, decide_false,
              Bool.false_eq_true, Sum.inl.injEq] at h
            exact ⟨c, p, rfl, hp, hstart, hseen, h.symm⟩
  · rintro ⟨c, p, hc, hp, hstart, hseen, rfl⟩
    simp [hc, hp, hstart, hseen]

/-- The containers that a walk up has neither left nor reached. -/
def Ascent.ahead (ds : List Declaration) (a : Ascent) : List Declaration :=
  ds.filter fun d => d.id ∉ a.current.toList.map (·.id) ++ a.seen

/-- The identifiers of the containers ahead. -/
theorem Ascent.toFinset_ahead (ds : List Declaration) (a : Ascent) :
    ((containersOf (a.ahead ds)).map (·.id)).toFinset =
      ((containersOf ds).map (·.id)).toFinset \
        (a.current.toList.map (·.id) ++ a.seen).toFinset := by
  ext id
  rw [Finset.mem_sdiff, List.mem_toFinset, List.mem_toFinset, List.mem_toFinset,
    mem_map_id_containersOf, mem_map_id_containersOf]
  constructor
  · rintro ⟨c, hc, hkind, rfl⟩
    obtain ⟨hmem, hahead⟩ := List.mem_filter.mp hc
    exact ⟨⟨c, hmem, hkind, rfl⟩, of_decide_eq_true hahead⟩
  · rintro ⟨⟨c, hmem, hkind, rfl⟩, hahead⟩
    exact ⟨c, List.mem_filter.mpr ⟨hmem, decide_eq_true hahead⟩, hkind, rfl⟩

/-- The walk up from a container ends, whatever encloses what, and passes no container twice but the
last one. -/
theorem isSome_walk?_ascent_of_le (ds : List Declaration) (start : String) (parent : Option String)
    {n : Nat} (hn : ((containersOf ds).map (·.id)).toFinset.card + 2 ≤ n) :
    (walk? (Ascent.step ds start) n ⟨parent.bind (container? ds), [start]⟩).isSome = true := by
  apply isSome_walk?_of_measure (P := fun a => ∀ c ∈ a.current, container? ds c.id = some c)
    (μ := fun a => ((containersOf (a.ahead ds)).map (·.id)).toFinset.card)
  · intro a a' _ hstep c hc
    obtain ⟨c', p, -, -, -, -, rfl⟩ := Ascent.step_eq_inl_iff.mp hstep
    rwa [(of_container?_eq_some hc).2.2]
  · intro a a' a'' ha hstep hnext
    obtain ⟨c, p, hc, hp, hstart, hseen, rfl⟩ := Ascent.step_eq_inl_iff.mp hstep
    obtain ⟨c', p', hc', hp', -, hseen', rfl⟩ := Ascent.step_eq_inl_iff.mp hnext
    obtain ⟨hmem, hkind, rfl⟩ := of_container?_eq_some hc'
    replace hc' : container? ds c'.id = some c' := hc'
    -- a container that is its own parent ends the walk when it is reached
    have hother : c'.id ≠ c.id := by
      intro heq
      have hsame : c' = c := Option.some.inj (hc'.symm.trans (heq ▸ ha c hc))
      rw [hsame, hp, Option.some.injEq] at hp'
      exact hseen' (hp' ▸ heq ▸ List.mem_cons_self)
    rw [Ascent.toFinset_ahead, Ascent.toFinset_ahead, hc, hc']
    apply card_sdiff_cons_lt (mem_map_id_containersOf.mpr ⟨c', hmem, hkind, rfl⟩)
    simpa [hother] using hseen
  · intro c hc
    obtain ⟨p, -, hfound⟩ := Option.bind_eq_some_iff.mp hc
    rwa [(of_container?_eq_some hfound).2.2]
  · refine le_trans (Nat.add_le_add_right (Finset.card_le_card ?_) 2) hn
    rw [Ascent.toFinset_ahead]
    exact Finset.sdiff_subset

theorem card_containersOf_le (ds : List Declaration) :
    ((containersOf ds).map (·.id)).toFinset.card ≤ ds.length := by
  apply (List.toFinset_card_le _).trans
  rw [containersOf, List.length_map, List.length_map]
  exact List.length_filter_le _ _

/-- The walk up from a container ends, whatever encloses what. -/
theorem isSome_walk?_ascent (ds : List Declaration) (start : String) (parent : Option String) :
    (walk? (Ascent.step ds start) (ds.length + 3)
      ⟨parent.bind (container? ds), [start]⟩).isSome = true := by
  have hcard := card_containersOf_le ds
  exact isSome_walk?_ascent_of_le ds start parent (by omega)

theorem isSome_findArrow_of_classify {text : List Char} (h : classify text = .link) :
    (findArrow text).isSome = true := by
  unfold classify at h
  dsimp only at h
  repeat' split at h
  all_goals first | assumption | cases h

theorem readEnd_ne_missingArrow (which : LinkEnd) (arrow : Arrow) (cs : List Char) :
    readEnd which arrow cs ≠ .error .missingArrow := by
  unfold readEnd
  dsimp only
  repeat' split
  all_goals simp

theorem readLinkLabel_ne_missingArrow (source : String) (arrow : Arrow) (target : String)
    (cs : List Char) : readLinkLabel source arrow target cs ≠ .error .missingArrow := by
  unfold readLinkLabel
  repeat' split
  all_goals simp

/-- The reader of links misses an arrow only where there is none. -/
theorem LinkStatement.read_ne_missingArrow {l : Line} (h : (findArrow l.text).isSome = true) :
    LinkStatement.read l ≠ .error .missingArrow := by
  intro hread
  obtain ⟨⟨i, arrow⟩, hfound⟩ := Option.isSome_iff_exists.mp h
  simp only [LinkStatement.read, hfound] at hread
  rcases bind_eq_error_iff.mp hread with hend | ⟨source, -, hread⟩
  · exact readEnd_ne_missingArrow _ _ _ hend
  · split at hread
    · rcases bind_eq_error_iff.mp hread with hend | ⟨target, -, hread⟩
      · exact readEnd_ne_missingArrow _ _ _ hend
      · cases hread
    · rcases bind_eq_error_iff.mp hread with hend | ⟨target, -, hread⟩
      · exact readEnd_ne_missingArrow _ _ _ hend
      · rcases bind_eq_error_iff.mp hread with hlabel | ⟨label, -, hread⟩
        · exact readLinkLabel_ne_missingArrow _ _ _ _ hlabel
        · cases hread

/-- What keeps the reading of a source from failing, and how it ends. -/
structure Unfailing (defaultTitle source : String) : Prop where
  /-- A declaration line has a first word. -/
  keyword : ∀ l ∈ sourceLines source, l.kind = .declaration → (splitWord? l.text).isSome = true
  /-- Reading a declaration line gives a declaration or a fault. -/
  declaration : ∀ l ∈ sourceLines source, l.kind = .declaration →
    ∀ f, Declaration.read l ≠ .error (.failed f)
  /-- A link line has an arrow. -/
  arrow : ∀ l ∈ sourceLines source, l.kind = .link → (findArrow l.text).isSome = true
  /-- The reader of links does not miss it. -/
  link : ∀ l ∈ sourceLines source, l.kind = .link → LinkStatement.read l ≠ .error .missingArrow
  /-- Every line is fed to a scanner that has not finished, and taken. -/
  fed : ∀ before l after, sourceLines source = before ++ l :: after →
    ∃ s t, Scanner.feedAll {} before = .ok s ∧ s.phase = .scanning ∧ s.feed l = .ok t
  /-- The walk up from any declaration ends. -/
  climbs : ∀ s, scan source = .ok s → ∀ d ∈ s.declarations,
    (walk? (Ascent.step s.declarations d.id) (s.declarations.length + 3)
      ⟨d.parent.bind (container? s.declarations), [d.id]⟩).isSome = true
  /-- There is a scanner of all lines, and finishing it gives the outcome. -/
  returned : ∃ s, scan source = .ok s ∧ parse defaultTitle source = (s.finish defaultTitle).2
  /-- The outcome carries a document exactly when it carries no diagnostics. -/
  document : (parse defaultTitle source).document?.isSome = true ↔
    (parse defaultTitle source).errors = []

/-- Every text that has the form of a number is one, and every source is read to its end, whatever
it holds. -/
theorem parse_unfailing (defaultTitle source : String) :
    (∀ value, Numeral.isNumeral value = true → ∃ v, Numeral.real? value = some v) ∧
      Unfailing defaultTitle source := by
  have hclass : ∀ l ∈ sourceLines source, l.Classified :=
    fun l hl => History.classified_of_mem_sourceLines hl
  have hkeyword : ∀ l ∈ sourceLines source, l.kind = .declaration → splitWord? l.text ≠ none :=
    fun l hl hk => splitWord?_of_classify ((hclass l hl).kind_eq ▸ hk)
  have harrow : ∀ l ∈ sourceLines source, l.kind = .link → (findArrow l.text).isSome = true :=
    fun l hl hk => isSome_findArrow_of_classify ((hclass l hl).kind_eq ▸ hk)
  refine ⟨fun value => Numeral.real?_of_isNumeral, ?_⟩
  exact {
    keyword := fun l hl hk => Option.isSome_iff_ne_none.mpr (hkeyword l hl hk)
    declaration := fun l hl hk => Declaration.read_ne_failed (hkeyword l hl hk)
    arrow := harrow
    link := fun l hl hk => LinkStatement.read_ne_missingArrow (harrow l hl hk)
    fed := by
      intro before l after hsplit
      have hbefore : ∀ k ∈ before, k.Classified := fun k hk => hclass k (by simp [hsplit, hk])
      exact ⟨_, _, History.feedAll_scanner hbefore [], rfl,
        History.feed_scanner (hclass l (by simp [hsplit])) _⟩
    climbs := fun s _ d _ => isSome_walk?_ascent s.declarations d.id d.parent
    returned := ⟨scanned source, scan_eq_ok_scanned source, rfl⟩
    document := by
      cases hparse : parse defaultTitle source with
      | success d => exact iff_of_true rfl rfl
      | invalid es =>
        rw [History.parse_eq_outcome] at hparse
        obtain ⟨hne, rfl⟩ := Scanner.outcome_eq_invalid_iff.mp hparse
        -- sorting loses no diagnostic
        have horder := byLine_mergeSort (History.scanner (sourceLines source).reverse).close.errors
        refine iff_of_false Bool.false_ne_true fun hnil => hne ?_
        exact List.perm_nil.mp (hnil ▸ horder.perm.symm) }

/-- Digits need not be those of one script. -/
example : Numeral.isNumeral "-٣.5".toList = true ∧
    Numeral.real? "-٣.5".toList = Numeral.real? "-3.5".toList :=
  ⟨rfl, rfl⟩

end Source

end ArchDiagram
