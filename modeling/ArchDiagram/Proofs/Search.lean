import ArchDiagram.Source.Lexeme
import Mathlib.Data.Nat.Find
import Mathlib.Tactic.Common

/-!
Searches outside quotes. A place is outside quotes when an even number of quotes stands before it,
and each search gives the first such place where what it looks for begins. The search for arrows is
therefore the search for either arrow that ends first, and it never cuts a two-way arrow in two.
-/

namespace ArchDiagram.Source

/-- Position `i` is outside quotes, when the text begins inside or outside them. -/
def OutsideFrom (quoted : Bool) (cs : List Char) (i : Nat) : Prop :=
  (cs.take i).count '"' % 2 = quoted.toNat

/-- Position `i` is the first outside quotes whose rest is one of `P`. -/
structure FirstFrom (quoted : Bool) (P : List Char → Prop) (cs : List Char) (i : Nat) : Prop where
  here : P (cs.drop i)
  outside : OutsideFrom quoted cs i
  first : ∀ j < i, OutsideFrom quoted cs j → ¬P (cs.drop j)

section Places

variable {quoted : Bool} {P : List Char → Prop} {c : Char} {cs : List Char} {i j : Nat}

theorem outsideFrom_zero : OutsideFrom quoted cs 0 ↔ quoted = false := by
  cases quoted <;> simp [OutsideFrom]

/-- A quote turns the inside out. -/
theorem outsideFrom_succ :
    OutsideFrom quoted (c :: cs) (i + 1) ↔
      OutsideFrom (if c = '"' then !quoted else quoted) cs i := by
  unfold OutsideFrom
  rw [List.take_succ_cons, List.count_cons]
  by_cases hc : c = '"'
  · cases quoted <;> simp [hc] <;> omega
  · simp [hc]

/-- Where the start is a place, it is the first. -/
theorem firstFrom_of_start (h : P cs) : FirstFrom false P cs i ↔ i = 0 := by
  constructor
  · intro hfirst
    by_contra hi
    exact hfirst.first 0 (Nat.pos_of_ne_zero hi) (outsideFrom_zero.mpr rfl) h
  · rintro rfl
    exact ⟨h, outsideFrom_zero.mpr rfl, fun j hj => absurd hj (Nat.not_lt_zero j)⟩

/-- Where the start is none, the first place is that of the tail. -/
theorem firstFrom_of_skip (h : quoted = false → ¬P (c :: cs)) :
    FirstFrom quoted P (c :: cs) i ↔
      ∃ j, j + 1 = i ∧ FirstFrom (if c = '"' then !quoted else quoted) P cs j := by
  constructor
  · intro hfirst
    cases i with
    | zero => exact absurd hfirst.here (h (outsideFrom_zero.mp hfirst.outside))
    | succ i =>
      refine ⟨i, rfl, hfirst.here, outsideFrom_succ.mp hfirst.outside, fun j hj hout => ?_⟩
      exact hfirst.first (j + 1) (Nat.succ_lt_succ hj) (outsideFrom_succ.mpr hout)
  · rintro ⟨i, rfl, hfirst⟩
    refine ⟨hfirst.here, outsideFrom_succ.mpr hfirst.outside, fun j hj hout => ?_⟩
    cases j with
    | zero => exact h (outsideFrom_zero.mp hout)
    | succ j => exact hfirst.first j (Nat.lt_of_succ_lt_succ hj) (outsideFrom_succ.mp hout)

/-- Where there is a place, there is a first one. -/
theorem exists_firstFrom (hout : OutsideFrom quoted cs i) (hhere : P (cs.drop i)) :
    ∃ j ≤ i, FirstFrom quoted P cs j := by
  classical
  have hplace : ∃ j, OutsideFrom quoted cs j ∧ P (cs.drop j) := ⟨i, hout, hhere⟩
  obtain ⟨hout', hhere'⟩ := Nat.find_spec hplace
  refine ⟨Nat.find hplace, Nat.find_min' hplace ⟨hout, hhere⟩, hhere', hout', ?_⟩
  exact fun j hj houtj hherej => Nat.find_min hplace hj ⟨houtj, hherej⟩

/-- A place at which a needle stands cuts the text. -/
theorem exists_of_prefix_drop {m : Char} {needle : List Char} (h : m :: needle <+: cs.drop i) :
    ∃ before after, cs = before ++ (m :: needle ++ after) ∧ before.length = i := by
  obtain ⟨after, hafter⟩ := h
  have hlength := congrArg List.length hafter
  rw [List.length_append, List.length_cons, List.length_drop] at hlength
  refine ⟨cs.take i, after, ?_, List.length_take_of_le (by omega)⟩
  rw [hafter, List.take_append_drop]

/-- A search that gives the first place finds nothing when there is none. -/
theorem eq_none_iff_of_first {β : Type} {found : Option β} (position : β → Nat)
    (h : ∀ i, (∃ b, found = some b ∧ position b = i) ↔ FirstFrom quoted P cs i) :
    found = none ↔ ∀ i, OutsideFrom quoted cs i → ¬P (cs.drop i) := by
  constructor
  · rintro rfl i hout hhere
    obtain ⟨j, -, hj⟩ := exists_firstFrom hout hhere
    obtain ⟨b, hb, -⟩ := (h j).mpr hj
    cases hb
  · intro hnot
    rw [Option.eq_none_iff_forall_ne_some]
    intro b hb
    have hfirst := (h (position b)).mp ⟨b, hb, rfl⟩
    exact hnot _ hfirst.outside hfirst.here

end Places

/-- The search for a text that does not begin with a quote gives the first place outside quotes
where it stands. -/
theorem findOutsideQuotes.search_eq_some_iff {m : Char} (hm : m ≠ '"') {needle : List Char}
    {quoted : Bool} {cs : List Char} {i : Nat} :
    search (m :: needle) quoted cs = some i ↔ FirstFrom quoted (m :: needle <+: ·) cs i := by
  induction cs generalizing quoted i with
  | nil =>
    refine iff_of_false (by simp [search]) fun h => ?_
    simpa using h.here
  | cons c cs ih =>
    have hlater (hskip : quoted = false → ¬m :: needle <+: c :: cs) :
        (search (m :: needle) (if c = '"' then !quoted else quoted) cs).map (· + 1) = some i ↔
          FirstFrom quoted (m :: needle <+: ·) (c :: cs) i := by
      rw [firstFrom_of_skip hskip, Option.map_eq_some_iff]
      exact exists_congr fun j => by rw [ih, and_comm]
    rw [search]
    split
    · rename_i hc
      rw [if_pos hc] at hlater
      refine hlater fun _ hhere => hm ?_
      exact (List.cons_prefix_cons.mp hhere).1.trans hc
    · rename_i hc
      rw [if_neg hc] at hlater
      split
      · rename_i hstart
        obtain ⟨rfl, hhere⟩ : quoted = false ∧ m :: needle <+: c :: cs := by
          simpa [List.isPrefixOf_iff_prefix] using hstart
        rw [firstFrom_of_start hhere, Option.some.injEq, eq_comm]
      · rename_i hstart
        refine hlater fun hquoted hhere => hstart ?_
        simpa [hquoted, List.isPrefixOf_iff_prefix] using hhere

theorem arrowAt?_append (a : Arrow) (rest : List Char) : arrowAt? (a.chars ++ rest) = some a := by
  cases a <;> rfl

theorem arrowAt?_eq_some_iff {cs : List Char} {a : Arrow} :
    arrowAt? cs = some a ↔ a.chars <+: cs := by
  constructor
  · intro h
    unfold arrowAt? at h
    split at h
    · rename_i hp
      cases h
      exact List.isPrefixOf_iff_prefix.mp hp
    · split at h
      · rename_i hp
        cases h
        exact List.isPrefixOf_iff_prefix.mp hp
      · cases h
  · rintro ⟨rest, rfl⟩
    exact arrowAt?_append a rest

/-- No arrow begins with a quote. -/
theorem exists_cons_chars (a : Arrow) : ∃ m rest, a.chars = m :: rest ∧ m ≠ '"' := by
  cases a
  · exact ⟨'-', ['>'], rfl, by decide⟩
  · exact ⟨'<', ['-', '>'], rfl, by decide⟩

theorem findArrow.later_eq_some_iff {found : Option (Nat × Arrow)} {i : Nat} {a : Arrow} :
    later found = some (i, a) ↔ ∃ j, j + 1 = i ∧ found = some (j, a) := by
  cases found with
  | none => simp [later]
  | some r =>
    obtain ⟨j, b⟩ := r
    simp [later]

/-- The search for arrows gives the first place outside quotes where one stands, and that one. -/
theorem findArrow.search_eq_some_iff {quoted : Bool} {cs : List Char} {i : Nat} {a : Arrow} :
    search quoted cs = some (i, a) ↔
      a.chars <+: cs.drop i ∧ FirstFrom quoted (fun s => ∃ b : Arrow, b.chars <+: s) cs i := by
  induction cs generalizing quoted i with
  | nil =>
    obtain ⟨m, rest, ha, -⟩ := exists_cons_chars a
    refine iff_of_false (by simp [search]) fun h => ?_
    simpa [ha] using h.1
  | cons c cs ih =>
    have hlater (hskip : quoted = false → ¬∃ b : Arrow, b.chars <+: c :: cs) :
        later (search (if c = '"' then !quoted else quoted) cs) = some (i, a) ↔
          a.chars <+: (c :: cs).drop i ∧
            FirstFrom quoted (fun s => ∃ b : Arrow, b.chars <+: s) (c :: cs) i := by
      rw [firstFrom_of_skip hskip, later_eq_some_iff, ← exists_and_left]
      refine exists_congr fun j => ?_
      rw [ih, and_left_comm (b := j + 1 = i)]
      refine and_congr_right fun hj => ?_
      rw [← hj, List.drop_succ_cons]
    rw [search]
    split
    · rename_i hc
      rw [if_pos hc] at hlater
      refine hlater fun _ => ?_
      rintro ⟨b, hb⟩
      obtain ⟨m, rest, hchars, hm⟩ := exists_cons_chars b
      rw [hchars, List.cons_prefix_cons] at hb
      exact hm (hb.1.trans hc)
    · rename_i hc
      rw [if_neg hc] at hlater
      split
      · rename_i hquoted
        exact hlater fun hout => absurd (hquoted.symm.trans hout) (by decide)
      · rename_i hquoted
        cases ha : arrowAt? (c :: cs) with
        | none =>
          refine hlater fun _ => ?_
          rintro ⟨b, hb⟩
          rw [arrowAt?_eq_some_iff.mpr hb] at ha
          cases ha
        | some b =>
          rw [Bool.not_eq_true] at hquoted
          subst hquoted
          rw [firstFrom_of_start ⟨b, arrowAt?_eq_some_iff.mp ha⟩]
          constructor
          · rintro ⟨⟩
            exact ⟨arrowAt?_eq_some_iff.mp ha, rfl⟩
          · rintro ⟨hhere, rfl⟩
            rw [List.drop_zero, ← arrowAt?_eq_some_iff, ha] at hhere
            cases hhere
            rfl

section Results

variable {cs : List Char}

theorem findOutsideQuotes_eq_some_iff {m : Char} (hm : m ≠ '"') {needle : List Char} {i : Nat} :
    findOutsideQuotes (m :: needle) cs = some i ↔ FirstFrom false (m :: needle <+: ·) cs i :=
  findOutsideQuotes.search_eq_some_iff hm

/-- The search for one arrow. -/
theorem findChars_eq_some_iff {a : Arrow} {i : Nat} :
    findOutsideQuotes a.chars cs = some i ↔ FirstFrom false (a.chars <+: ·) cs i := by
  obtain ⟨m, rest, ha, hm⟩ := exists_cons_chars a
  rw [ha]
  exact findOutsideQuotes_eq_some_iff hm

theorem findArrow_eq_some_iff {i : Nat} {a : Arrow} :
    findArrow cs = some (i, a) ↔
      a.chars <+: cs.drop i ∧ FirstFrom false (fun s => ∃ b : Arrow, b.chars <+: s) cs i :=
  findArrow.search_eq_some_iff

theorem findChars_eq_none_iff {a : Arrow} :
    findOutsideQuotes a.chars cs = none ↔
      ∀ i, OutsideFrom false cs i → ¬a.chars <+: cs.drop i := by
  refine eq_none_iff_of_first (P := (a.chars <+: ·)) id fun i => ?_
  rw [← findChars_eq_some_iff]
  simp

theorem findArrow_eq_none_iff :
    findArrow cs = none ↔ ∀ i, OutsideFrom false cs i → ¬∃ a : Arrow, a.chars <+: cs.drop i := by
  refine eq_none_iff_of_first (P := fun s => ∃ a : Arrow, a.chars <+: s) Prod.fst fun i => ?_
  constructor
  · rintro ⟨⟨i, a⟩, hfound, rfl⟩
    exact (findArrow_eq_some_iff.mp hfound).2
  · intro hfirst
    obtain ⟨a, ha⟩ := hfirst.here
    exact ⟨(i, a), findArrow_eq_some_iff.mpr ⟨ha, hfirst⟩, rfl⟩

/-- A two-way arrow begins right before a one-way arrow with the character `<` in front. -/
theorem startsWith_twoWay {i : Nat} (h : Arrow.oneWay.chars <+: cs.drop (i + 1))
    (hc : cs[i]? = some '<') : Arrow.twoWay.chars <+: cs.drop i := by
  obtain ⟨hi, hget⟩ := List.getElem?_eq_some_iff.mp hc
  rw [List.drop_eq_getElem_cons hi, hget]
  exact List.cons_prefix_cons.mpr ⟨rfl, h⟩

theorem outsideFrom_of_succ {quoted : Bool} {i : Nat} {c : Char} (hc : cs[i]? = some c)
    (hquote : c ≠ '"') (h : OutsideFrom quoted cs (i + 1)) : OutsideFrom quoted cs i := by
  obtain ⟨hi, rfl⟩ := List.getElem?_eq_some_iff.mp hc
  unfold OutsideFrom at h ⊢
  rwa [List.take_succ_eq_append_getElem hi, List.count_append, List.count_singleton,
    if_neg (by simpa using hquote), Nat.add_zero] at h

end Results

/-- The arrow `a` at position `i` is the first that stands outside quotes. -/
structure FirstArrow (cs : List Char) (i : Nat) (a : Arrow) : Prop where
  /-- The search for this arrow ends here. -/
  found : findOutsideQuotes a.chars cs = some i
  /-- No search for an arrow ends earlier. -/
  least : ∀ (b : Arrow) (j : Nat), findOutsideQuotes b.chars cs = some j → i ≤ j
  here : a.chars <+: cs.drop i
  /-- An even number of quotes stands before it. -/
  outside : (cs.take i).count '"' % 2 = 0
  /-- No arrow starts earlier with an even number of quotes before it. -/
  first : ∀ j < i, (cs.take j).count '"' % 2 = 0 → ∀ b : Arrow, ¬b.chars <+: cs.drop j
  /-- A one-way arrow is not the end of a two-way one. -/
  whole : a = .oneWay → ∀ j, j + 1 = i → cs[j]? ≠ some '<'

/-- The search for arrows finds nothing when neither arrow is found alone, and otherwise the first
arrow outside quotes. -/
theorem findArrow_exact (cs : List Char) :
    (findArrow cs = none ↔ ∀ a : Arrow, findOutsideQuotes a.chars cs = none) ∧
      ∀ i a, findArrow cs = some (i, a) ↔ FirstArrow cs i a := by
  constructor
  · simp only [findArrow_eq_none_iff, findChars_eq_none_iff, not_exists]
    exact ⟨fun h a i hout => h i hout a, fun h i hout a => h a i hout⟩
  · intro i a
    rw [findArrow_eq_some_iff]
    constructor
    · rintro ⟨hhere, hfirst⟩
      have hnone {j : Nat} (hj : j < i) (hout : OutsideFrom false cs j) (b : Arrow) :
          ¬b.chars <+: cs.drop j := fun hb => hfirst.first j hj hout ⟨b, hb⟩
      exact {
        found := findChars_eq_some_iff.mpr
          ⟨hhere, hfirst.outside, fun j hj hout => hnone hj hout a⟩
        least := by
          intro b j hfound
          have hother := findChars_eq_some_iff.mp hfound
          exact Nat.le_of_not_lt fun hlt => hnone hlt hother.outside b hother.here
        here := hhere
        outside := hfirst.outside
        first := fun j hj hout => hnone hj hout
        whole := by
          rintro rfl j rfl hc
          -- the two-way arrow would begin one place earlier, outside quotes as well
          exact hnone (Nat.lt_succ_self j) (outsideFrom_of_succ hc (by decide) hfirst.outside)
            .twoWay (startsWith_twoWay hhere hc) }
    · intro h
      exact ⟨h.here, ⟨a, h.here⟩, h.outside, fun j hj hout ⟨b, hb⟩ => h.first j hj hout b hb⟩

/-- An arrow in quotes is passed over, and the later one is found whole. -/
example : findArrow "\"a -> b\" <-> c".toList = some (9, .twoWay) := by
  decide

end ArchDiagram.Source
