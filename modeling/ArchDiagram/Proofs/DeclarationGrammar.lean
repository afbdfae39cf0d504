import ArchDiagram.Proofs.AttributeTokens
import ArchDiagram.Proofs.History
import ArchDiagram.Proofs.NumberForm

/-!
The grammar of declarations: a keyword, an identifier, a colon, a quoted label, and a tail of
attributes that a brace may end. A text has at most one decomposition of this form, a declaration is
read if and only if its text has one, and what is read comes from there.
-/

namespace ArchDiagram.Source

open Text

/-- Words with blanks between them, and blanks or nothing around them. -/
inductive Spaced : List Char → List (List Char) → Prop
  | blank {gap : List Char} (hgap : ∀ c ∈ gap, isBlank c = true) : Spaced gap []
  | word {gap w rest : List Char} {ws : List (List Char)} (hgap : ∀ c ∈ gap, isBlank c = true)
      (some : w ≠ []) (visible : ∀ c ∈ w, isBlank c = false)
      (apart : ∀ c ∈ rest.head?, isBlank c = true) (more : Spaced rest ws) :
      Spaced (gap ++ (w ++ rest)) (w :: ws)

theorem words_append_of_blank {gap : List Char} (hgap : ∀ c ∈ gap, isBlank c = true)
    (cs : List Char) : words (gap ++ cs) = words cs := by
  induction gap with
  | nil => rfl
  | cons c gap ih =>
    rw [List.cons_append, words, if_pos (hgap c (by simp))]
    exact ih fun d hd => hgap d (by simp [hd])

theorem spaced_words (cs : List Char) : Spaced cs (words cs) := by
  obtain ⟨gap, hgap, hcs⟩ := exists_margin_left cs
  by_cases hnil : trimLeft cs = []
  · rw [hnil] at hcs
    rw [hcs, words_append_of_blank hgap, List.append_nil]
    exact .blank hgap
  · -- one word, and then what follows it, which is shorter
    have hhead := head_trimLeft cs
    have hword := List.takeWhile_append_dropWhile (p := (!isBlank ·)) (l := trimLeft cs)
    set w := (trimLeft cs).takeWhile (!isBlank ·) with hw
    set rest := (trimLeft cs).dropWhile (!isBlank ·)
    have hsome : w ≠ [] := by
      obtain ⟨c, more, hc⟩ := List.exists_cons_of_ne_nil hnil
      rw [hw, hc, List.takeWhile_cons, if_pos (by rw [hhead c (by rw [hc]; rfl)]; rfl)]
      exact List.cons_ne_nil _ _
    have hvisible : ∀ c ∈ w, isBlank c = false := by
      intro c hc
      simpa using List.all_eq_true.mp List.all_takeWhile c hc
    have hapart : ∀ c ∈ rest.head?, isBlank c = true := by
      intro c hc
      have hn := List.head?_dropWhile_not (!isBlank ·) (trimLeft cs)
      rw [show ((trimLeft cs).dropWhile (!isBlank ·)).head? = some c from hc] at hn
      simpa using hn
    have hshort : rest.length < cs.length := by
      have hpos := List.length_pos_iff.mpr hsome
      rw [hcs, ← hword, List.length_append, List.length_append]
      omega
    rw [hcs, ← hword, words_append_of_blank hgap, words_append hsome hvisible hapart]
    exact .word hgap hsome hvisible hapart (spaced_words rest)
termination_by cs.length

theorem spaced_iff {cs : List Char} {ws : List (List Char)} : Spaced cs ws ↔ words cs = ws := by
  constructor
  · intro h
    induction h with
    | blank hgap =>
      have hwords := words_append_of_blank hgap []
      rwa [List.append_nil] at hwords
    | word hgap hsome hvisible hapart _ ih =>
      rw [words_append_of_blank hgap, words_append hsome hvisible hapart, ih]
  · rintro rfl
    exact spaced_words cs

/-- One attribute, cut at its first equals sign. -/
structure Assignment where
  key : List Char
  value : List Char

namespace Assignment

def text (a : Assignment) : List Char :=
  a.key ++ '=' :: a.value

/-- The keys of positions and sizes. -/
def sideKeys : List String := ["x", "y", "w", "width", "h", "height"]

/-- A number of the narrow form that is finite. -/
def FiniteNumber (value : List Char) : Prop :=
  Numeral.NumberForm value ∧ ∃ v, Numeral.real? value = some v ∧ v.isFinite = true

structure WellFormed (a : Assignment) : Prop where
  key_ne_nil : a.key ≠ []
  key_ends : '=' ∉ a.key
  unquoted : '"' ∉ a.value
  side : String.ofList a.key ∈ sideKeys → a.value = [] ∨ FiniteNumber a.value
  parent : String.ofList a.key = "parent" → a.value = [] ∨ isIdentifier a.value = true

theorem text_injective {a b : Assignment} (ha : '=' ∉ a.key) (hb : '=' ∉ b.key)
    (h : a.text = b.text) : a = b := by
  have hkey {k : List Char} (hk : '=' ∉ k) : ∀ c ∈ k, (c != '=') = true := fun c hc => by
    simpa using fun he : c = '=' => hk (he ▸ hc)
  obtain ⟨hfirst, hsecond⟩ := cut_unique (p := (· != '=')) (hkey ha) (by simp) (hkey hb) (by simp) h
  cases a
  cases b
  simp_all

theorem map_text_injective {ms ns : List Assignment} (hm : ∀ m ∈ ms, m.WellFormed)
    (hn : ∀ n ∈ ns, n.WellFormed) (h : ms.map text = ns.map text) : ms = ns := by
  induction ms generalizing ns with
  | nil => exact (List.map_eq_nil_iff.mp h.symm).symm
  | cons m ms ih =>
    obtain ⟨n, ns, rfl, htext, hrest⟩ := List.map_eq_cons_iff.mp h.symm
    rw [text_injective (hn n (by simp)).key_ends (hm m (by simp)).key_ends htext,
      ih (fun k hk => hm k (by simp [hk])) (fun k hk => hn k (by simp [hk])) hrest.symm]

end Assignment

theorem splitAttribute?_eq_some_iff {token key value : List Char} :
    splitAttribute? token = some (key, value) ↔
      token = key ++ '=' :: value ∧ key ≠ [] ∧ '=' ∉ key := by
  constructor
  · intro h
    unfold splitAttribute? at h
    split at h
    · cases h
    · rename_i e rest he
      dsimp only at h
      split at h
      · cases h
      · rename_i hn
        cases h
        have hsign : e = '=' := by
          have hn := List.head?_dropWhile_not (· != '=') token
          rw [he] at hn
          simpa using hn
        subst hsign
        obtain ⟨htoken, hkey⟩ := (span_eq_iff (p := (· != '=')) rfl).mp ⟨rfl, he⟩
        exact ⟨htoken, by simpa using hn, fun hm => by simpa using hkey _ hm⟩
  · rintro ⟨rfl, hn, hk⟩
    exact splitAttribute?_append hn hk value

theorem exists_readCoordinate_iff (key owner : String) (value : List Char) :
    (∃ v, readCoordinate key owner value = .ok v) ↔ Assignment.FiniteNumber value := by
  unfold readCoordinate Assignment.FiniteNumber
  rw [← Numeral.isNumeral_iff]
  dsimp only
  split
  · rename_i hn
    obtain ⟨v, hv⟩ := Numeral.real?_of_isNumeral hn
    rw [hv]
    cases hf : v.isFinite <;> simp [hn, hf]
  · rename_i hn
    simp [hn]

/-- The keys that set a field. -/
def Key.spellings : Key → List String
  | side .x => ["x"]
  | side .y => ["y"]
  | side .width => ["w", "width"]
  | side .height => ["h", "height"]
  | icon => ["icon"]
  | parent => ["parent"]
  | other => []

theorem Key.ofText_eq_iff {k : Key} (hk : k ≠ .other) (key : String) :
    Key.ofText key = k ↔ key ∈ k.spellings := by
  constructor
  · rintro rfl
    unfold Key.ofText
    split_ifs <;> simp_all [spellings, Key.ofText]
  · intro h
    match k with
    | .side .x | .side .y | .icon | .parent =>
      obtain rfl := List.mem_singleton.mp h
      rfl
    | .side .width | .side .height =>
      simp only [spellings, List.mem_cons, List.not_mem_nil, or_false] at h
      rcases h with rfl | rfl <;> rfl
    | .other => exact absurd rfl hk

theorem Key.exists_side_iff (key : String) :
    (∃ s, Key.ofText key = .side s) ↔ key ∈ Assignment.sideKeys := by
  unfold Key.ofText Assignment.sideKeys
  split_ifs <;> simp_all
  tauto

theorem Key.ofText_eq_parent_iff (key : String) : Key.ofText key = .parent ↔ key = "parent" :=
  (Key.ofText_eq_iff (by simp) key).trans List.mem_singleton

/-- Whether an attribute is applied depends on its key and its value alone. -/
theorem Attributes.exists_apply_text_iff (owner : String) (b : Bool) (a : Attributes)
    {m : Assignment} (hn : m.key ≠ []) (he : '=' ∉ m.key) (hq : '"' ∉ m.value) :
    (∃ a', a.apply owner b m.text = .ok a') ↔
      (String.ofList m.key ∈ Assignment.sideKeys →
        m.value = [] ∨ Assignment.FiniteNumber m.value) ∧
      (String.ofList m.key = "parent" → m.value = [] ∨ isIdentifier m.value = true) := by
  have hread := exists_readCoordinate_iff (String.ofList m.key) owner m.value
  unfold Attributes.apply Assignment.text
  rw [splitAttribute?_append hn he, ← Key.exists_side_iff, ← Key.ofText_eq_parent_iff, ← hread]
  dsimp only
  rw [if_neg (by simpa using hq)]
  cases hk : Key.ofText (String.ofList m.key) with
  | side s =>
    by_cases hv : m.value = []
    · simp [hv]
    · cases readCoordinate (String.ofList m.key) owner m.value <;> simp [hv, Except.map]
  | icon => simp
  | parent =>
    by_cases hv : m.value = []
    · simp [hv]
    · cases hi : isIdentifier m.value <;> simp [hv]
  | other => simp

/-- An attribute is applied if and only if it has the form of one. -/
theorem Attributes.exists_apply_iff (owner : String) (b : Bool) (a : Attributes)
    (token : List Char) :
    (∃ a', a.apply owner b token = .ok a') ↔ ∃ m : Assignment, m.WellFormed ∧ token = m.text := by
  constructor
  · rintro ⟨a', h⟩
    have hcut : splitAttribute? token ≠ none := by
      intro hnone
      simp [Attributes.apply, hnone] at h
    obtain ⟨⟨key, value⟩, hcut⟩ := Option.ne_none_iff_exists'.mp hcut
    obtain ⟨rfl, hn, he⟩ := splitAttribute?_eq_some_iff.mp hcut
    have hq : '"' ∉ value := by
      intro hq
      simp [Attributes.apply, hcut, hq] at h
    have hform := (exists_apply_text_iff owner b a (m := ⟨key, value⟩) hn he hq).mp ⟨a', h⟩
    exact ⟨⟨key, value⟩, ⟨hn, he, hq, hform.1, hform.2⟩, rfl⟩
  · rintro ⟨m, hm, rfl⟩
    exact (exists_apply_text_iff owner b a hm.key_ne_nil hm.key_ends hm.unquoted).mpr
      ⟨hm.side, hm.parent⟩

theorem Attributes.exists_applyAll_iff (owner : String) (b : Bool) (a : Attributes)
    (tokens : List (List Char)) :
    (∃ a', a.applyAll owner b tokens = .ok a') ↔
      ∃ ms : List Assignment, (∀ m ∈ ms, m.WellFormed) ∧ tokens = ms.map Assignment.text := by
  induction tokens generalizing a with
  | nil => exact ⟨fun _ => ⟨[], by simp, rfl⟩, fun _ => ⟨a, rfl⟩⟩
  | cons token tokens ih =>
    constructor
    · rintro ⟨a', h⟩
      unfold Attributes.applyAll at h
      split at h
      · rename_i a₁ hfirst
        obtain ⟨m, hm, rfl⟩ := (exists_apply_iff owner b a token).mp ⟨a₁, hfirst⟩
        obtain ⟨ms, hms, rfl⟩ := (ih a₁).mp ⟨a', h⟩
        exact ⟨m :: ms, by simpa using ⟨hm, hms⟩, rfl⟩
      · cases h
    · rintro ⟨ms, hms, htokens⟩
      obtain ⟨m, ms, rfl, rfl, rfl⟩ := List.map_eq_cons_iff.mp htokens.symm
      obtain ⟨a₁, hfirst⟩ := (exists_apply_iff owner b a m.text).mpr ⟨m, hms m (by simp), rfl⟩
      obtain ⟨a', hrest⟩ := (ih a₁).mpr ⟨ms, fun n hn => hms n (by simp [hn]), rfl⟩
      exact ⟨a', by rw [Attributes.applyAll, hfirst]; exact hrest⟩

/-- A tail, its part before an opening brace, and whether it has one. The brace is the last
character that is not blank and has an even number of quotes before it. -/
inductive Tail : List Char → List Char → Bool → Prop
  | opens {body gap : List Char} (hgap : ∀ c ∈ gap, isBlank c = true)
      (even : body.count '"' % 2 = 0) : Tail (body ++ '{' :: gap) body true
  | plain {tail : List Char}
      (odd : ∀ body gap : List Char, (∀ c ∈ gap, isBlank c = true) → tail = body ++ '{' :: gap →
        body.count '"' % 2 = 1) : Tail tail tail false

/-- The last character of a text that is not blank. -/
theorem trimRight_eq_concat_iff {cs before : List Char} {m : Char} (hm : isBlank m = false) :
    trimRight cs = before ++ [m] ↔
      ∃ gap, (∀ c ∈ gap, isBlank c = true) ∧ cs = before ++ m :: gap := by
  constructor
  · intro h
    obtain ⟨gap, hgap, hcs⟩ := exists_margin_right cs
    refine ⟨gap, hgap, ?_⟩
    rw [hcs, h, List.append_assoc, List.singleton_append]
  · rintro ⟨gap, hgap, rfl⟩
    rw [List.append_cons, trimRight_append_of_blank hgap]
    apply trimRight_of_last
    intro c hc
    rw [List.getLast?_concat] at hc
    cases hc
    exact hm

theorem splitOpening_eq_iff {tail body : List Char} {b : Bool} :
    splitOpening tail = (body, b) ↔ Tail tail body b := by
  constructor
  · intro h
    by_cases hbrace : ∃ before, trimRight tail = before ++ ['{'] ∧ before.count '"' % 2 = 0
    · obtain ⟨before, htrim, heven⟩ := hbrace
      rw [splitOpening_of_brace htrim heven] at h
      cases h
      obtain ⟨gap, hgap, rfl⟩ := (trimRight_eq_concat_iff rfl).mp htrim
      exact .opens hgap heven
    · rw [splitOpening_of_no_brace fun before htrim heven => hbrace ⟨before, htrim, heven⟩] at h
      cases h
      refine .plain fun body gap hgap htail => ?_
      by_contra hodd
      exact hbrace ⟨body, (trimRight_eq_concat_iff rfl).mpr ⟨gap, hgap, htail⟩, by omega⟩
  · rintro (⟨hgap, heven⟩ | hodd)
    · exact splitOpening_of_brace ((trimRight_eq_concat_iff rfl).mpr ⟨_, hgap, rfl⟩) heven
    · apply splitOpening_of_no_brace
      intro before htrim
      obtain ⟨gap, hgap, htail⟩ := (trimRight_eq_concat_iff rfl).mp htrim
      have := hodd before gap hgap htail
      omega

/-- The pieces of a declaration, in their order. -/
structure DeclarationParts where
  keyword : List Char
  afterKeyword : List Char
  id : List Char
  beforeColon : List Char
  beforeLabel : List Char
  label : List Char
  tail : List Char
  /-- The tail without an opening brace at its end. -/
  body : List Char
  opens : Bool
  attributes : List Assignment

namespace DeclarationParts

/-- What stands between the quotes, and after them. -/
def fromLabel (p : DeclarationParts) : List Char :=
  p.label ++ '"' :: p.tail

def fromId (p : DeclarationParts) : List Char :=
  p.id ++ (p.beforeColon ++ ':' :: (p.beforeLabel ++ '"' :: p.fromLabel))

def text (p : DeclarationParts) : List Char :=
  p.keyword ++ (p.afterKeyword ++ p.fromId)

/-- The grammar of declarations. -/
structure Grammatical (p : DeclarationParts) : Prop where
  keyword : p.keyword = "node".toList ∨ p.keyword = "container".toList
  spaced : p.afterKeyword ≠ []
  afterKeyword : ∀ c ∈ p.afterKeyword, isBlank c = true
  id : isIdentifier p.id = true
  beforeColon : ∀ c ∈ p.beforeColon, isBlank c = true
  beforeLabel : ∀ c ∈ p.beforeLabel, isBlank c = true
  label : '"' ∉ p.label
  tail : Tail p.tail p.body p.opens
  opens_container : p.opens = true → p.keyword = "container".toList
  body : Spaced p.body (p.attributes.map Assignment.text)
  attributes : ∀ m ∈ p.attributes, m.WellFormed

variable {p q : DeclarationParts}

theorem Grammatical.keyword_visible (h : p.Grammatical) :
    p.keyword ≠ [] ∧ ∀ c ∈ p.keyword, isBlank c = false := by
  rcases h.keyword with hk | hk
  · rw [hk]
    exact ⟨by decide, forall_mem_of_all (by decide)⟩
  · rw [hk]
    exact ⟨by decide, forall_mem_of_all (by decide)⟩

theorem Grammatical.head_fromId (h : p.Grammatical) :
    ∀ c ∈ p.fromId.head?, isBlank c = false :=
  head_identifier_append h.id _

theorem Grammatical.head_afterKeyword (h : p.Grammatical) :
    ∀ c ∈ (p.afterKeyword ++ p.fromId).head?, isBlank c = true := by
  obtain ⟨c, more, hc⟩ := List.exists_cons_of_ne_nil h.spaced
  simpa [hc] using h.afterKeyword c (by simp [hc])

/-- What follows the identifier is not part of it. -/
theorem Grammatical.head_beforeColon (h : p.Grammatical) (rest : List Char) :
    ∀ c ∈ (p.beforeColon ++ ':' :: rest).head?, isIdentifierChar c = false :=
  head_append_of_blank h.beforeColon (by rintro c ⟨⟩; rfl)

/-- A text has one decomposition: each piece ends where the next cannot be part of it. -/
theorem Grammatical.eq_of_text (hp : p.Grammatical) (hq : q.Grammatical) (h : p.text = q.text) :
    p = q := by
  have hquote {p : DeclarationParts} (hp : p.Grammatical) :
      ∀ c ∈ p.label, (c != '"') = true := by
    intro c hc
    simpa using fun he : c = '"' => hp.label (he ▸ hc)
  obtain ⟨hkeyword, h⟩ := cut_unique (p := (!isBlank ·)) (by simpa using hp.keyword_visible.2)
    (by simpa using hp.head_afterKeyword) (by simpa using hq.keyword_visible.2)
    (by simpa using hq.head_afterKeyword) h
  obtain ⟨hafter, h⟩ :=
    cut_unique hp.afterKeyword hp.head_fromId hq.afterKeyword hq.head_fromId h
  obtain ⟨hid, h⟩ := cut_unique ((isIdentifier_iff _).mp hp.id).2 (hp.head_beforeColon _)
    ((isIdentifier_iff _).mp hq.id).2 (hq.head_beforeColon _) h
  obtain ⟨hcolon, h⟩ := cut_unique hp.beforeColon (by simp [isBlank]) hq.beforeColon
    (by simp [isBlank]) h
  obtain ⟨hlabel, h⟩ := cut_unique hp.beforeLabel (by simp [isBlank]) hq.beforeLabel
    (by simp [isBlank]) (List.cons.inj h).2
  obtain ⟨htext, h⟩ := cut_unique (p := (· != '"')) (hquote hp) (by simp) (hquote hq) (by simp)
    (List.cons.inj h).2
  have htail := (List.cons.inj h).2
  -- the tail is cut by functions, and so are its words
  have hopening := splitOpening_eq_iff.mpr hp.tail
  rw [htail, splitOpening_eq_iff.mpr hq.tail, Prod.mk.injEq] at hopening
  have hwords := spaced_iff.mp hp.body
  rw [← hopening.1, spaced_iff.mp hq.body] at hwords
  have hattributes := Assignment.map_text_injective hq.attributes hp.attributes hwords
  cases p
  cases q
  simp_all

/-- What follows the keyword is read as the grammar says. -/
theorem Grammatical.readHead_eq (h : p.Grammatical) (keyword : String) :
    readHead keyword p.fromId = .ok (p.id, p.label, p.tail) := by
  have hbefore : ∀ c ∈ p.id ++ p.beforeColon, isBeforeColon c = true := by
    intro c hc
    rw [isBeforeColon, Bool.and_eq_true, bne_iff_ne, bne_iff_ne]
    rcases List.mem_append.mp hc with hc | hc
    · have hchar := ((isIdentifier_iff _).mp h.id).2 c hc
      constructor <;> rintro rfl <;> cases hchar
    · have hblank := h.beforeColon c hc
      constructor <;> rintro rfl <;> cases hblank
  have htrim : trim (p.id ++ p.beforeColon) = p.id := by
    have hmargin := trim_append_margins (List.forall_mem_nil _) h.beforeColon p.id
    rwa [List.nil_append, (trimmed_identifier h.id).trim_eq] at hmargin
  refine readHead_eq_ok_iff.mpr ⟨_, p.beforeLabel, hbefore, h.beforeLabel, h.label, htrim, h.id, ?_⟩
  rw [fromId, fromLabel, List.append_assoc]

/-- A line of this form is read, and the pieces are where the declaration comes from. -/
theorem Grammatical.read_eq (h : p.Grammatical) {l : Line} (hl : Trimmed l.text)
    (htext : l.text = p.text) :
    ∃ a : Attributes, Declaration.read l = .ok { a with
      keyword := String.ofList p.keyword
      id := String.ofList p.id
      label := String.ofList p.label
      line := l.number
      opensBlock := p.opens } := by
  obtain ⟨hne, hvisible⟩ := h.keyword_visible
  have hleft : trimLeft p.fromId = p.fromId := trimLeft_of_head h.head_fromId
  have hword : splitWord? l.text = some (p.keyword, p.fromId) := by
    rw [htext, text, splitWord?_append_gap hne hvisible h.spaced h.afterKeyword, hleft]
  have htrim : trim p.fromId = p.fromId := by
    obtain ⟨-, -, -, htrimmed, -⟩ := hl.exists_gap hword
    exact htrimmed.trim_eq
  have hopening := splitOpening_eq_iff.mpr h.tail
  have hopens : Source.opensBlock p.tail = p.opens := congrArg Prod.snd hopening
  have hwords : words (splitOpening p.tail).1 = p.attributes.map Assignment.text := by
    rw [hopening]
    exact spaced_iff.mp h.body
  obtain ⟨a, ha⟩ := (Attributes.exists_applyAll_iff (String.ofList p.id)
    (String.ofList p.keyword == "container") {} _).mpr ⟨p.attributes, h.attributes, rfl⟩
  refine ⟨a, Declaration.read_eq_ok_iff.mpr ⟨p.keyword, p.fromId, p.id, p.label, p.tail, a, hword,
    ?_, ?_, ?_, ?_⟩⟩
  · rw [htrim]
    exact h.readHead_eq _
  · intro ho
    rw [h.opens_container (hopens ▸ ho)]
    rfl
  · rw [hwords]
    exact ha
  · rw [hopens]

/-- The text of a line that is read has a decomposition. -/
theorem exists_of_read {l : Line} (hl : l.Classified) (hk : l.kind = .declaration)
    {d : Declaration} (h : Declaration.read l = .ok d) :
    ∃ p : DeclarationParts, p.Grammatical ∧ l.text = p.text := by
  obtain ⟨word, rest, id, label, tail, a, hword, hhead, hopens, ha, -⟩ :=
    Declaration.read_eq_ok_iff.mp h
  obtain ⟨gap, hgap, htext, htrimmed, hspaced⟩ := hl.trimmed.exists_gap hword
  rw [htrimmed.trim_eq] at hhead
  obtain ⟨before, beforeLabel, -, hbeforeLabel, hlabel, rfl, hid, hrest⟩ :=
    readHead_eq_ok_iff.mp hhead
  obtain ⟨left, beforeColon, hleft, hbeforeColon, hbefore⟩ := exists_margins before
  have hnone : left = [] := by
    -- the rest does not begin with a blank
    cases left with
    | nil => rfl
    | cons c left =>
      have hc : isBlank c = true := hleft c (by simp)
      have hvisible := htrimmed.head c (by rw [hrest, hbefore]; rfl)
      rw [hc] at hvisible
      cases hvisible
  obtain ⟨ms, hms, hwords⟩ := (Attributes.exists_applyAll_iff _ _ _ _).mp ⟨a, ha⟩
  refine ⟨{ keyword := word, afterKeyword := gap, id := trim before, beforeColon, beforeLabel, label,
            tail, body := (splitOpening tail).1, opens := (splitOpening tail).2, attributes := ms },
    { keyword := hl.keyword_of_splitWord? hk hword
      spaced := hspaced (by simp [hrest])
      afterKeyword := hgap
      id := hid
      beforeColon := hbeforeColon
      beforeLabel := hbeforeLabel
      label := hlabel
      tail := splitOpening_eq_iff.mp rfl
      opens_container := fun ho => by simpa using congrArg String.toList (hopens ho)
      body := spaced_iff.mpr hwords
      attributes := hms }, ?_⟩
  rw [htext, hrest]
  conv_lhs => rw [hbefore, hnone]
  simp [text, fromId, fromLabel]

end DeclarationParts

/-- What reading a declaration line does, by the grammar. -/
structure ReadByGrammar (l : Line) : Prop where
  unique : ∀ p q : DeclarationParts, p.Grammatical → q.Grammatical → l.text = p.text →
    l.text = q.text → p = q
  accepted : (∃ d, Declaration.read l = .ok d) ↔
    ∃ p : DeclarationParts, p.Grammatical ∧ l.text = p.text
  parts : ∀ (p : DeclarationParts) (d : Declaration), p.Grammatical → l.text = p.text →
    Declaration.read l = .ok d →
      d.keyword = String.ofList p.keyword ∧ d.id = String.ofList p.id ∧
        d.label = String.ofList p.label ∧ d.opensBlock = p.opens ∧ d.line = l.number
  rejected : (¬∃ p : DeclarationParts, p.Grammatical ∧ l.text = p.text) →
    ∃ fault, Declaration.read l = .error (.rejected fault) ∧
      ∀ s : Scanner, ∃ t, s.scanLine l = .ok t ∧ t.errors = s.errors ++ [⟨l.number, fault⟩] ∧
        t.declarations = s.declarations

/-- A rejected declaration leaves one error, at its line, and no declaration. -/
theorem Scanner.scanLine_of_rejected {l : Line} (hk : l.kind = .declaration) {fault : Fault}
    (h : Declaration.read l = .error (.rejected fault)) (s : Scanner) :
    ∃ t, s.scanLine l = .ok t ∧ t.errors = s.errors ++ [⟨l.number, fault⟩] ∧
      t.declarations = s.declarations := by
  unfold scanLine
  rw [hk]
  dsimp only
  unfold scanDeclaration
  rw [h]
  refine ⟨_, rfl, ?_⟩
  split <;> exact ⟨rfl, rfl⟩

/-- Reading follows the grammar on every line that is a declaration. -/
theorem readByGrammar_ofText {n : Int} {raw : List Char}
    (hk : (Line.ofText n raw).kind = .declaration) : ReadByGrammar (Line.ofText n raw) := by
  have hl := Line.classified_ofText n raw
  refine ⟨?_, ?_, ?_, ?_⟩
  · intro p q hp hq hptext hqtext
    exact hp.eq_of_text hq (hptext.symm.trans hqtext)
  · constructor
    · rintro ⟨d, hd⟩
      exact DeclarationParts.exists_of_read hl hk hd
    · rintro ⟨p, hp, htext⟩
      obtain ⟨a, ha⟩ := hp.read_eq hl.trimmed htext
      exact ⟨_, ha⟩
  · intro p d hp htext hd
    obtain ⟨a, ha⟩ := hp.read_eq hl.trimmed htext
    rw [hd] at ha
    cases ha
    exact ⟨rfl, rfl, rfl, rfl, rfl⟩
  · intro hnone
    rcases History.read_declaration_cases hl hk with ⟨d, hd⟩ | ⟨fault, hfault⟩
    · exact absurd (DeclarationParts.exists_of_read hl hk hd) hnone
    · exact ⟨fault, hfault, Scanner.scanLine_of_rejected hk hfault⟩

theorem readByGrammar_container :
    (Line.ofText 3 "  container vpc : \"VPC\" w=600 h=4. \x7b".toList).kind = .declaration ∧
      ReadByGrammar (Line.ofText 3 "  container vpc : \"VPC\" w=600 h=4. \x7b".toList) :=
  ⟨by decide, readByGrammar_ofText (by decide)⟩

end ArchDiagram.Source
