import ArchDiagram.Proofs.Trimming
import ArchDiagram.Source.Declaration
import ArchDiagram.Source.Link
import ArchDiagram.Source.Title
import Mathlib.Tactic.Common

/-!
The forms of statements. Each reader accepts exactly the texts of one form: a quoted text runs to
the next quote, an opening brace is the last character outside quotes, a title is one quoted text
after an optional colon, and a declaration starts with an identifier, a colon and a quoted label.
-/

namespace ArchDiagram.Source

open Text

theorem bind_eq_ok_iff {ε α β : Type} {x : Except ε α} {f : α → Except ε β} {b : β} :
    x >>= f = .ok b ↔ ∃ a, x = .ok a ∧ f a = .ok b := by
  cases x with
  | ok a => exact ⟨fun h => ⟨a, rfl, h⟩, fun ⟨_, ha, h⟩ => Except.ok.inj ha ▸ h⟩
  | error e => exact ⟨fun h => (nomatch h), fun ⟨_, ha, _⟩ => (nomatch ha)⟩

theorem bind_eq_error_iff {ε α β : Type} {x : Except ε α} {f : α → Except ε β} {e : ε} :
    x >>= f = .error e ↔ x = .error e ∨ ∃ a, x = .ok a ∧ f a = .error e := by
  cases x with
  | ok a =>
    exact ⟨fun h => .inr ⟨a, rfl, h⟩, fun h => h.elim (fun h => (nomatch h))
      fun ⟨_, ha, h⟩ => Except.ok.inj ha ▸ h⟩
  | error e' =>
    exact ⟨fun h => .inl (Except.error.inj h ▸ rfl), fun h => h.elim (fun h => h ▸ rfl)
      fun ⟨_, ha, _⟩ => (nomatch ha)⟩

/-- Letters, digits, the hyphen and the underscore, by number. -/
theorem toNat_of_isIdentifierChar {c : Char} (h : isIdentifierChar c = true) :
    (48 ≤ c.toNat ∧ c.toNat ≤ 57) ∨ (65 ≤ c.toNat ∧ c.toNat ≤ 90) ∨
      (97 ≤ c.toNat ∧ c.toNat ≤ 122) ∨ c = '_' ∨ c = '-' := by
  have halpha : c.isAlpha = (c.isUpper || c.isLower) := rfl
  have hupper : c.isUpper = decide (c.val ≥ 65 ∧ c.val ≤ 90) := rfl
  have hlower : c.isLower = (decide (c.val ≥ 97) && decide (c.val ≤ 122)) := rfl
  simp only [isIdentifierChar, Char.isAlphanum, halpha, hupper, hlower, Char.isDigit,
    Bool.or_eq_true, Bool.and_eq_true, decide_eq_true_eq, beq_iff_eq, ge_iff_le,
    UInt32.le_iff_toNat_le] at h
  rcases h with (((h | h) | h) | rfl) | rfl
  · exact .inr (.inl h)
  · exact .inr (.inr (.inl h))
  · exact .inl h
  · simp
  · simp

theorem isBlank_of_isIdentifierChar {c : Char} (h : isIdentifierChar c = true) :
    isBlank c = false := by
  rcases toNat_of_isIdentifierChar h with h | h | h | rfl | rfl
  · simp [isBlank]
    omega
  · simp [isBlank]
    omega
  · simp [isBlank]
    omega
  · rfl
  · rfl

theorem isIdentifierChar_of_start {c : Char} (h : isIdentifierStart c = true) :
    isIdentifierChar c = true := by
  simp only [isIdentifierStart, Bool.or_eq_true] at h
  simp only [isIdentifierChar, Char.isAlphanum, Bool.or_eq_true]
  tauto

/-- An identifier is a letter or underscore and then identifier characters. -/
theorem isIdentifier_iff (cs : List Char) :
    isIdentifier cs = true ↔
      (∃ c ∈ cs.head?, isIdentifierStart c = true) ∧ ∀ c ∈ cs, isIdentifierChar c = true := by
  cases cs with
  | nil => simp [isIdentifier]
  | cons c cs =>
    simp only [isIdentifier, Bool.and_eq_true, List.all_eq_true, List.head?_cons, Option.mem_def,
      Option.some.injEq, exists_eq_left', List.mem_cons, forall_eq_or_imp]
    constructor
    · rintro ⟨hs, hr⟩
      exact ⟨hs, isIdentifierChar_of_start hs, hr⟩
    · rintro ⟨hs, -, hr⟩
      exact ⟨hs, hr⟩

theorem ne_nil_of_isIdentifier {cs : List Char} (h : isIdentifier cs = true) : cs ≠ [] := by
  rintro rfl
  simp [isIdentifier] at h

theorem isBlank_of_mem_identifier {cs : List Char} (h : isIdentifier cs = true) :
    ∀ c ∈ cs, isBlank c = false :=
  fun c hc => isBlank_of_isIdentifierChar (((isIdentifier_iff cs).mp h).2 c hc)

/-- A mark that no identifier holds. -/
theorem not_mem_identifier {cs : List Char} (h : isIdentifier cs = true) {m : Char}
    (hm : isIdentifierChar m = false) : m ∉ cs := by
  intro hc
  rw [((isIdentifier_iff cs).mp h).2 m hc] at hm
  cases hm

theorem trimmed_of_no_blank {cs : List Char} (h : ∀ c ∈ cs, isBlank c = false) : Trimmed cs :=
  ⟨fun c hc => h c (List.mem_of_mem_head? hc), fun c hc => h c (List.mem_of_mem_getLast? hc)⟩

theorem trimmed_identifier {cs : List Char} (h : isIdentifier cs = true) : Trimmed cs :=
  trimmed_of_no_blank (isBlank_of_mem_identifier h)

theorem not_isIdentifierChar_of_blank {c : Char} (h : isBlank c = true) :
    isIdentifierChar c = false := by
  by_contra hchar
  rw [isBlank_of_isIdentifierChar (by simpa using hchar)] at h
  cases h

/-- An identifier ends where blanks, or something that is no part of it, begin. -/
theorem head_append_of_blank {gap rest : List Char} (hgap : ∀ c ∈ gap, isBlank c = true)
    (hrest : ∀ c ∈ rest.head?, isIdentifierChar c = false) :
    ∀ c ∈ (gap ++ rest).head?, isIdentifierChar c = false := by
  intro c hc
  rw [List.head?_append, Option.mem_def, Option.or_eq_some_iff] at hc
  rcases hc with hc | ⟨-, hc⟩
  · exact not_isIdentifierChar_of_blank (hgap c (List.mem_of_mem_head? hc))
  · exact hrest c hc

theorem head_identifier_append {id : List Char} (hid : isIdentifier id = true)
    (rest : List Char) : ∀ c ∈ (id ++ rest).head?, isBlank c = false := by
  obtain ⟨c, more, hc⟩ := List.exists_cons_of_ne_nil (ne_nil_of_isIdentifier hid)
  have hb : isBlank c = false := isBlank_of_mem_identifier hid c (by simp [hc])
  simpa [hc] using hb

/-- A text cut at the first character outside a class. -/
theorem span_eq_iff {p : Char → Bool} {cs a b : List Char} {m : Char} (hm : p m = false) :
    cs.takeWhile p = a ∧ cs.dropWhile p = m :: b ↔ cs = a ++ m :: b ∧ ∀ c ∈ a, p c = true := by
  constructor
  · rintro ⟨rfl, hd⟩
    refine ⟨?_, fun c hc => List.all_eq_true.mp List.all_takeWhile c hc⟩
    rw [← hd, List.takeWhile_append_dropWhile]
  · rintro ⟨rfl, ha⟩
    rw [List.takeWhile_append_of_pos ha, List.dropWhile_append_of_pos ha]
    simp [hm]

/-- A quoted text runs to the next quote. -/
theorem closeQuote?_eq_some_iff {cs text rest : List Char} :
    closeQuote? cs = some (text, rest) ↔ cs = text ++ '"' :: rest ∧ '"' ∉ text := by
  have hspan : cs.takeWhile (· != '"') = text ∧ cs.dropWhile (· != '"') = '"' :: rest ↔
      cs = text ++ '"' :: rest ∧ ∀ c ∈ text, (c != '"') = true := span_eq_iff rfl
  have hall : (∀ c ∈ text, (c != '"') = true) ↔ '"' ∉ text := by
    constructor
    · intro h hc
      simpa using h _ hc
    · intro h c hc
      simp only [bne_iff_ne]
      rintro rfl
      exact h hc
  rw [hall] at hspan
  rw [← hspan]
  unfold closeQuote?
  split
  · rename_i hd
    simp [hd]
  · rename_i q r hd
    -- the run before a quote stops at nothing else
    have hq : q = '"' := by
      have hn := List.head?_dropWhile_not (fun c : Char => c != '"') cs
      rw [hd] at hn
      simpa using hn
    subst hq
    simp [hd]

/-- A final opening brace with an even number of quotes before it. -/
theorem splitOpening_of_brace {cs before : List Char} (h : trimRight cs = before ++ ['{'])
    (hq : before.count '"' % 2 = 0) : splitOpening cs = (before, true) := by
  unfold splitOpening
  simp [h, hq]

theorem splitOpening_of_no_brace {cs : List Char}
    (h : ∀ before, trimRight cs = before ++ ['{'] → before.count '"' % 2 ≠ 0) :
    splitOpening cs = (cs, false) := by
  unfold splitOpening
  split
  · rename_i before he
    have hb : trimRight cs = before.reverse ++ ['{'] := by
      rw [← List.reverse_reverse (trimRight cs), he, List.reverse_cons]
    have hq := h _ hb
    rw [List.count_reverse] at hq
    rw [if_neg hq]
  · rfl

theorem opensBlock_iff (cs : List Char) :
    opensBlock cs = true ↔
      ∃ before, trimRight cs = before ++ ['{'] ∧ before.count '"' % 2 = 0 := by
  constructor
  · intro h
    by_contra hn
    push Not at hn
    rw [opensBlock, splitOpening_of_no_brace hn] at h
    cases h
  · rintro ⟨before, hb, hq⟩
    rw [opensBlock, splitOpening_of_brace hb hq]

/-- Whether a text opens a block is decided after any closing quote in it. -/
theorem opensBlock_append {a : List Char} (hl : a.getLast? = some '"')
    (hq : a.count '"' % 2 = 0) (b : List Char) : opensBlock (a ++ b) = opensBlock b := by
  have htrim : trimRight (a ++ b) = a ++ trimRight b := by
    apply trimRight_append
    rw [hl]
    rintro c ⟨⟩
    rfl
  rw [Bool.eq_iff_iff, opensBlock_iff, opensBlock_iff, htrim]
  constructor
  · rintro ⟨before, he, hb⟩
    rcases List.eq_nil_or_concat (trimRight b) with hnil | ⟨t, c, ht⟩
    · -- the last character is the closing quote
      rw [hnil, List.append_nil] at he
      rw [he] at hl
      simp at hl
    · rw [List.concat_eq_append] at ht
      rw [ht, ← List.append_assoc] at he
      obtain ⟨rfl, hc⟩ := List.append_inj' he rfl
      refine ⟨t, ht.trans (congrArg (t ++ ·) hc), ?_⟩
      rw [List.count_append] at hb
      omega
  · rintro ⟨before, he, hb⟩
    refine ⟨a ++ before, by rw [he, List.append_assoc], ?_⟩
    rw [List.count_append]
    omega

/-- What may follow the word `title`: up to blanks, an optional colon and one quoted text. -/
def TitleForm (after text : List Char) : Prop :=
  ∃ a colon b c : List Char,
    (∀ x ∈ a, isBlank x = true) ∧ (∀ x ∈ b, isBlank x = true) ∧ (∀ x ∈ c, isBlank x = true) ∧
      (colon = [] ∨ colon = [':']) ∧ '"' ∉ text ∧
        after = a ++ colon ++ b ++ '"' :: text ++ '"' :: c

theorem trimLeft_append_cons {gap : List Char} (hgap : ∀ c ∈ gap, isBlank c = true) {m : Char}
    (hm : isBlank m = false) (rest : List Char) : trimLeft (gap ++ m :: rest) = m :: rest := by
  rw [trimLeft_append_of_blank hgap, trimLeft_of_not_blank hm]

theorem readTitle_of_form {l : Line} {text : List Char} (h : TitleForm (l.text.drop 5) text) :
    readTitle l = .ok (String.ofList text) := by
  obtain ⟨a, colon, b, c, ha, hb, hc, hcolon, hq, he⟩ := h
  have hclose : closeQuote? (text ++ '"' :: c) = some (text, c) :=
    closeQuote?_eq_some_iff.mpr ⟨rfl, hq⟩
  have htrim : (trim c).isEmpty = true := by rw [(trim_eq_nil_iff c).mpr hc]; rfl
  unfold readTitle
  rcases hcolon with rfl | rfl
  · have hab : ∀ x ∈ a ++ b, isBlank x = true := by
      intro x hx
      rcases List.mem_append.mp hx with hx | hx
      · exact ha x hx
      · exact hb x hx
    have hrest : trimLeft (l.text.drop 5) = '"' :: (text ++ '"' :: c) := by
      rw [he, List.append_nil, List.append_assoc, List.cons_append]
      exact trimLeft_append_cons hab rfl _
    simp [hrest, hclose, htrim]
  · have hrest : trimLeft (l.text.drop 5) = ':' :: (b ++ '"' :: (text ++ '"' :: c)) := by
      rw [he, show a ++ [':'] ++ b ++ '"' :: text ++ '"' :: c =
        a ++ ':' :: (b ++ '"' :: (text ++ '"' :: c)) by simp]
      exact trimLeft_append_cons ha rfl _
    have hmore : trimLeft (b ++ '"' :: (text ++ '"' :: c)) = '"' :: (text ++ '"' :: c) :=
      trimLeft_append_cons hb rfl _
    simp [hrest, hmore, hclose, htrim]

theorem form_of_readTitle {l : Line} {text : String} (h : readTitle l = .ok text) :
    TitleForm (l.text.drop 5) text.toList := by
  obtain ⟨a, ha, hafter⟩ := exists_margin_left (l.text.drop 5)
  unfold readTitle at h
  dsimp only at h
  split at h
  · rename_i body hbody
    -- with or without a colon, a blank gap and the opening quote come next
    obtain ⟨colon, b, hcolon, hb, hrest⟩ : ∃ colon b : List Char,
        (colon = [] ∨ colon = [':']) ∧ (∀ x ∈ b, isBlank x = true) ∧
          trimLeft (l.text.drop 5) = colon ++ b ++ '"' :: body := by
      split at hbody
      · rename_i more hm
        obtain ⟨b, hb, he⟩ := exists_margin_left more
        refine ⟨[':'], b, .inr rfl, hb, ?_⟩
        rw [hm, List.append_assoc, ← hbody, ← he, List.singleton_append]
      · exact ⟨[], [], .inl rfl, by simp, hbody⟩
    split at h
    · cases h
    · rename_i t c hclose
      split at h
      · rename_i hc
        cases h
        obtain ⟨he, hq⟩ := closeQuote?_eq_some_iff.mp hclose
        have hblank := (trim_eq_nil_iff c).mp (by simpa using hc)
        refine ⟨a, colon, b, c, ha, hb, hblank, hcolon, by simpa using hq, ?_⟩
        rw [hafter, hrest, he]
        simp
      · cases h
  · cases h

/-- The head of a declaration: an identifier, a colon and a quoted label, up to blanks. -/
theorem readHead_eq_ok_iff {keyword : String} {rest id label tail : List Char} :
    readHead keyword rest = .ok (id, label, tail) ↔
      ∃ before gap : List Char, (∀ c ∈ before, isBeforeColon c = true) ∧
        (∀ c ∈ gap, isBlank c = true) ∧ '"' ∉ label ∧ trim before = id ∧
        isIdentifier id = true ∧
        rest = before ++ ':' :: (gap ++ '"' :: (label ++ '"' :: tail)) := by
  constructor
  · intro h
    unfold readHead at h
    dsimp only at h
    split at h
    · cases h
    · split at h
      · cases h
      · rename_i hid
        split at h
        · rename_i more hmore
          obtain ⟨gap, hgap, hgm⟩ := exists_margin_left more
          split at h
          · rename_i body hbody
            split at h
            · rename_i l t hclose
              cases h
              obtain ⟨hlab, hq⟩ := closeQuote?_eq_some_iff.mp hclose
              obtain ⟨hrest, hbefore⟩ := (span_eq_iff (p := isBeforeColon) rfl).mp ⟨rfl, hmore⟩
              refine ⟨_, gap, hbefore, hgap, hq, rfl, by simpa using hid, ?_⟩
              rw [← hlab, ← hbody, ← hgm]
              exact hrest
            · cases h
          · cases h
        · cases h
  · rintro ⟨before, gap, hbefore, hgap, hq, rfl, hid, rfl⟩
    have hspan := (span_eq_iff (p := isBeforeColon) (m := ':')
      (b := gap ++ '"' :: (label ++ '"' :: tail)) rfl).mpr ⟨rfl, hbefore⟩
    unfold readHead
    rw [hspan.1, hspan.2]
    have hne : (trim before).isEmpty = false := by
      simpa using ne_nil_of_isIdentifier hid
    have hclose : closeQuote? (label ++ '"' :: tail) = some (label, tail) :=
      closeQuote?_eq_some_iff.mpr ⟨rfl, hq⟩
    simp [hid, hne, trimLeft_append_cons hgap (m := '"') rfl, hclose]

/-- A declaration that is read, part by part. -/
theorem Declaration.read_eq_ok_iff {l : Line} {d : Declaration} :
    Declaration.read l = .ok d ↔
      ∃ (word rest id label tail : List Char) (a : Attributes),
        splitWord? l.text = some (word, rest) ∧
        readHead (String.ofList word) (trim rest) = .ok (id, label, tail) ∧
        (Source.opensBlock tail = true → String.ofList word = "container") ∧
        Attributes.applyAll (String.ofList id) (String.ofList word == "container") {}
          (words (splitOpening tail).1) = .ok a ∧
        d = { a with
              keyword := String.ofList word
              id := String.ofList id
              label := String.ofList label
              line := l.number
              opensBlock := Source.opensBlock tail } := by
  constructor
  · intro h
    unfold Declaration.read at h
    split at h
    · cases h
    · rename_i word rest hword
      dsimp only at h
      split at h
      · cases h
      · rename_i id label tail hhead
        split at h
        · cases h
        · rename_i hopen
          split at h
          · cases h
          · rename_i a ha
            cases h
            refine ⟨word, rest, id, label, tail, a, hword, hhead, ?_, ha, rfl⟩
            intro ho
            simpa [show (splitOpening tail).2 = true from ho] using hopen
  · rintro ⟨word, rest, id, label, tail, a, hword, hhead, hopen, ha, rfl⟩
    unfold Declaration.read
    rw [hword]
    dsimp only
    rw [hhead]
    dsimp only
    rw [if_neg ?_, ha]
    · rfl
    · intro hn
      rw [Bool.and_eq_true] at hn
      simp [hopen hn.1] at hn

theorem Declaration.line_of_read {l : Line} {d : Declaration} (h : Declaration.read l = .ok d) :
    d.line = l.number := by
  obtain ⟨_, _, _, _, _, _, _, _, _, _, rfl⟩ := read_eq_ok_iff.mp h
  rfl

/-- A line as it comes from a source: trimmed, with the kind that its text has. -/
structure Line.Classified (l : Line) : Prop where
  trimmed : Trimmed l.text
  kind_eq : l.kind = classify l.text

theorem Line.text_ofText (n : Int) (raw : List Char) : (Line.ofText n raw).text = trim raw :=
  rfl

theorem Line.kind_ofText (n : Int) (raw : List Char) :
    (Line.ofText n raw).kind = classify (trim raw) :=
  rfl

theorem Line.classified_ofText (n : Int) (raw : List Char) : (Line.ofText n raw).Classified :=
  ⟨trimmed_trim raw, rfl⟩

/-- A declaration line starts with one of the two keywords. -/
theorem firstWord_of_classify {text : List Char} (h : classify text = .declaration) :
    firstWord text = "node".toList ∨ firstWord text = "container".toList := by
  unfold classify at h
  dsimp only at h
  split at h
  · cases h
  · split at h
    · cases h
    · split at h
      · rename_i hw
        simpa only [Bool.or_eq_true, decide_eq_true_eq] using hw
      · split at h
        · cases h
        · split at h
          · cases h
          · split at h <;> cases h

theorem Line.Classified.keyword_of_splitWord? {l : Line} (hl : l.Classified)
    (hk : l.kind = .declaration) {word rest : List Char}
    (hword : splitWord? l.text = some (word, rest)) :
    word = "node".toList ∨ word = "container".toList := by
  have hfirst : firstWord l.text = word := by simp [firstWord, hword]
  rw [← hfirst]
  exact firstWord_of_classify (hl.kind_eq ▸ hk)

/-- The kind of a line of several words is decided by the first of them and the arrow. -/
theorem classify_append {w : List Char} (hn : w ≠ []) (hw : ∀ c ∈ w, isBlank c = false)
    (hs : '/' ∉ w) (rest : List Char) :
    classify (w ++ ' ' :: rest) =
      if w = "node".toList || w = "container".toList then .declaration
      else if (findArrow (w ++ ' ' :: rest)).isSome then .link
      else if w = "title".toList || "title:".toList.isPrefixOf w then .title
      else .unknown := by
  have hfirst := firstWord_append hn hw rest
  obtain ⟨c, w, rfl⟩ := List.exists_cons_of_ne_nil hn
  have hc : c ≠ '/' := fun h => hs (by simp [h])
  have hcomment : "//".toList.isPrefixOf (c :: w ++ ' ' :: rest) = false := by
    change (('/' == c) && _) = false
    rw [beq_eq_false_iff_ne.mpr hc.symm, Bool.false_and]
  have hend : c :: w ++ ' ' :: rest ≠ ['}'] := by simp
  unfold classify
  dsimp only
  rw [hfirst, hcomment, if_neg (by simp), if_neg (by simp), if_neg hend]

/-- The text of an accepted declaration up to its label ends with a quote and holds two of them, so
the brace after the label is the brace of the whole line. -/
theorem Declaration.opensBlock_of_read {l : Line} {d : Declaration} (hl : l.Classified)
    (hk : l.kind = .declaration) (h : Declaration.read l = .ok d) :
    d.opensBlock = Source.opensBlock l.text := by
  obtain ⟨word, rest, id, label, tail, a, hword, hhead, -, -, rfl⟩ := read_eq_ok_iff.mp h
  obtain ⟨before, gap, hbefore, hgap, hlabel, -, -, hrest⟩ := readHead_eq_ok_iff.mp hhead
  have hkeyword := hl.keyword_of_splitWord? hk hword
  obtain ⟨gap', hgap', hwhole, htrimmed, -⟩ := hl.trimmed.exists_gap hword
  have htrim : trim rest = rest := htrimmed.trim_eq
  have hquotes (cs : List Char) (hcs : ∀ c ∈ cs, c ≠ '"') : cs.count '"' = 0 :=
    List.count_eq_zero.mpr fun hq => hcs _ hq rfl
  have hblank (cs : List Char) (hcs : ∀ c ∈ cs, isBlank c = true) : cs.count '"' = 0 := by
    apply hquotes
    rintro c hc rfl
    exact absurd (hcs _ hc) (by decide)
  -- two quotes up to the end of the label: the keyword, the name and the gaps hold none
  have hstart : (word ++ gap' ++ before ++ ':' :: gap ++ '"' :: label ++ ['"']).count '"' = 2 := by
    have hw : word.count '"' = 0 := by rcases hkeyword with rfl | rfl <;> decide
    have hb : before.count '"' = 0 := hquotes before fun c hc hcq => by
      have := hbefore c hc
      simp [isBeforeColon, hcq] at this
    simp [List.count_append, hw, hb, hblank gap hgap, hblank gap' hgap',
      List.count_eq_zero.mpr hlabel]
  have hform : l.text =
      (word ++ gap' ++ before ++ ':' :: gap ++ '"' :: label ++ ['"']) ++ tail := by
    rw [hwhole, ← htrim, hrest]
    simp
  rw [hform]
  exact (opensBlock_append List.getLast?_concat (by rw [hstart]) tail).symm

end ArchDiagram.Source
