import ArchDiagram.Proofs.RoundTrip

/-!
What a source can give. Names, labels, icons and coordinates of a document that was read are such
that they can be written again, so the document is presentable as soon as its coordinates are
spelled as themselves. Whether its text is read as the same document is then decided by the two
kinds of statement that are mistaken for something else.
-/

namespace ArchDiagram.Source

open Text

/-- Attributes that can be written again: a bare icon and finite coordinates. -/
structure Attributes.Plain (a : Attributes) : Prop where
  icon : ∀ i ∈ a.icon, Bare i
  finite : ∀ v ∈ a.frame.values, v.isFinite = true

theorem values_set {f : Frame Binary64} {s : Side} {w v : Binary64} (h : v ∈ (f.set s w).values) :
    v = w ∨ v ∈ f.values := by
  cases s <;> simp [Frame.set, Frame.values] at h ⊢ <;> tauto

theorem isFinite_of_readCoordinate {key owner : String} {value : List Char} {v : Binary64}
    (h : readCoordinate key owner value = .ok v) : v.isFinite = true := by
  unfold readCoordinate at h
  dsimp only at h
  split at h
  · split at h
    · cases h
    · split at h
      · cases h
        assumption
      · cases h
  · cases h

theorem splitAttribute?_eq_some {token key value : List Char}
    (h : splitAttribute? token = some (key, value)) : ∀ c ∈ value, c ∈ token := by
  unfold splitAttribute? at h
  split at h
  · cases h
  · rename_i c rest hd
    dsimp only at h
    split at h
    · cases h
    · cases h
      intro c hc
      apply (List.dropWhile_sublist (· != '=')).subset
      rw [hd]
      exact List.mem_cons_of_mem _ hc

/-- One attribute keeps attributes plain. -/
theorem Attributes.Plain.apply {owner : String} {b : Bool} {a a' : Attributes} {token : List Char}
    (ha : a.Plain) (ht : ∀ c ∈ token, isBlank c = false) (h : a.apply owner b token = .ok a') :
    a'.Plain := by
  unfold Attributes.apply at h
  split at h
  · cases h
  · rename_i key value hsplit
    have hvalue := splitAttribute?_eq_some hsplit
    dsimp only at h
    split at h
    · cases h
    · rename_i hquote
      split at h
      · split at h
        · cases h
          exact ha
        · obtain ⟨v, hv, rfl⟩ := map_eq_ok_iff.mp h
          refine ⟨ha.icon, fun w hw => ?_⟩
          rcases values_set hw with rfl | hw
          · exact isFinite_of_readCoordinate hv
          · exact ha.finite w hw
      · cases h
        split
        · exact ha
        · -- an icon is the rest of a word after the equals sign, checked for quotes
          refine ⟨fun i hi => ?_, ha.finite⟩
          unfold nonempty? at hi
          split at hi
          · cases hi
          · rename_i hne
            cases hi
            refine ⟨by simpa using hne, fun c hc => ?_⟩
            rw [String.toList_ofList] at hc
            refine ⟨ht c (hvalue c hc), ?_⟩
            rintro rfl
            exact hquote (by simpa using hc)
      · split at h
        · cases h
          exact ⟨ha.icon, ha.finite⟩
        · cases h
      · cases h
        exact ha

/-- So do all attributes of a declaration. -/
theorem Attributes.Plain.applyAll {owner : String} {b : Bool} {a a' : Attributes}
    {tokens : List (List Char)} (ha : a.Plain) (ht : ∀ t ∈ tokens, ∀ c ∈ t, isBlank c = false)
    (h : a.applyAll owner b tokens = .ok a') : a'.Plain := by
  induction tokens generalizing a with
  | nil =>
    cases h
    exact ha
  | cons t ts ih =>
    rw [Attributes.applyAll] at h
    split at h
    · rename_i a₁ h₁
      exact ih (ha.apply (ht t (by simp)) h₁) (fun u hu => ht u (by simp [hu])) h
    · cases h

/-- What is read of a declaration can be written again. -/
theorem Declaration.plain_of_read {l : Line} {d : Declaration} (h : Declaration.read l = .ok d)
    (hn : '\n' ∉ l.text) :
    isIdentifier d.id.toList = true ∧ Quotable d.label ∧ d.toAttributes.Plain := by
  obtain ⟨word, rest, id, label, tail, a, hword, hhead, -, ha, rfl⟩ := read_eq_ok_iff.mp h
  obtain ⟨before, gap, -, -, hlabel, -, hid, hrest⟩ := readHead_eq_ok_iff.mp hhead
  -- the label is part of the line, and a line has no line feed
  have hnewline : '\n' ∉ label := by
    intro hc
    have hmem : '\n' ∈ trim rest := by
      rw [hrest]
      simp [hc]
    exact hn (mem_of_splitWord? hword (mem_of_mem_trim hmem))
  have hempty : Attributes.Plain {} := ⟨by simp, by simp [Frame.values]⟩
  refine ⟨by simpa using hid, ⟨by simpa using hlabel, by simpa using hnewline⟩, ?_⟩
  exact hempty.applyAll (fun t ht c hc => ((of_mem_words ht).2 c hc).1) ha

theorem quotable_of_readLinkLabel {source target label : String} {r : Arrow} {cs : List Char}
    (h : readLinkLabel source r target cs = .ok label) (hn : '\n' ∉ cs) : Quotable label := by
  unfold readLinkLabel at h
  split at h
  · cases h
  · rename_i body hbody
    split at h
    · cases h
    · rename_i text rest hclose
      split at h
      · cases h
        obtain ⟨htext, hquote⟩ := closeQuote?_eq_some_iff.mp hclose
        have hnewline : '\n' ∉ text := by
          intro hc
          apply hn
          apply mem_of_mem_trimLeft
          rw [hbody, htext]
          simp [hc]
        exact ⟨by simpa using hquote, by simpa using hnewline⟩
      · cases h
  · cases h

/-- The label of a link that was read can be written again. -/
theorem LinkStatement.quotable_of_read {l : Line} {k : LinkStatement}
    (h : LinkStatement.read l = .ok k) (hn : '\n' ∉ l.text) :
    ∀ label ∈ k.label, Quotable label := by
  unfold LinkStatement.read at h
  split at h
  · rename_i i r _
    obtain ⟨source, -, h⟩ := bind_eq_ok_iff.mp h
    dsimp only at h
    split at h
    · obtain ⟨target, -, h⟩ := bind_eq_ok_iff.mp h
      cases h
      simp
    · rename_i colon _
      obtain ⟨target, -, h⟩ := bind_eq_ok_iff.mp h
      obtain ⟨label, hlabel, h⟩ := bind_eq_ok_iff.mp h
      cases h
      rintro _ ⟨⟩
      apply quotable_of_readLinkLabel hlabel
      intro hc
      exact hn (List.mem_of_mem_drop (mem_of_mem_trim (List.mem_of_mem_drop hc)))
  · cases h

theorem newline_not_mem_of_mem_sourceLines {source : String} {l : Line}
    (h : l ∈ sourceLines source) : '\n' ∉ l.text := by
  obtain ⟨i, hi, rfl⟩ := List.mem_mapIdx.mp h
  intro hc
  exact not_mem_of_mem_splitOn (List.getElem_mem hi) (mem_of_mem_trim hc)

theorem mem_declared {before ls : List Line} {e : Declaration} (h : e ∈ declared before ls) :
    ∃ l ∈ ls, ∃ e₀ p, l.declaration? = some e₀ ∧ e = { e₀ with parent := p } := by
  induction ls generalizing before with
  | nil => cases h
  | cons l ls ih =>
    rw [declared] at h
    rcases List.mem_append.mp h with h | h
    · obtain ⟨e₀, he₀, rfl⟩ := Option.map_eq_some_iff.mp (Option.mem_toList.mp h)
      exact ⟨l, by simp, e₀, _, he₀, rfl⟩
    · obtain ⟨k, hk, hrest⟩ := ih h
      exact ⟨k, by simp [hk], hrest⟩

/-- The items of a document are those that its lines declare, containers first. -/
theorem Holds.items_perm {defaultTitle : String} {ls : List Line} {d : Document Binary64}
    (hd : Holds defaultTitle ls d) : d.items.Perm ((declared [] ls).map Declaration.toItem) := by
  have hitems : d.items = ((declared [] ls).filter (·.isContainer) ++
      (declared [] ls).filter (!·.isContainer)).map Declaration.toItem := by
    rw [Document.items, hd.containers, hd.nodes, List.map_map, List.map_append]
    rfl
  rw [hitems]
  exact (List.filter_append_perm _ _).map _

theorem Holds.resolved {defaultTitle : String} {ls : List Line} {d : Document Binary64}
    (hd : Holds defaultTitle ls d) (hw : WellFormed ls) : d.Resolved := by
  have hids : (d.items.map (·.id)).Perm ((declared [] ls).map (·.id)) := by
    have := hd.items_perm.map (·.id)
    rwa [List.map_map] at this
  refine ⟨hids.nodup_iff.mpr hw.distinct, ?_, hd.containers ▸ hw.acyclic, ?_⟩
  · intro i hi p hp
    obtain ⟨e, he, rfl⟩ := List.mem_map.mp (hd.items_perm.mem_iff.mp hi)
    rw [Document.containerIds, hd.containers]
    exact hw.parents e he p hp
  · intro l hl
    rw [hd.links] at hl
    obtain ⟨i, hi, rfl⟩ := List.mem_mapIdx.mp hl
    have hends := hw.ends _ (List.getElem_mem hi)
    exact ⟨hids.mem_iff.mpr hends.1, hids.mem_iff.mpr hends.2⟩

theorem Holds.numbered {defaultTitle : String} {ls : List Line} {d : Document Binary64}
    (hd : Holds defaultTitle ls d) (i : Nat) (h : i < d.links.length) :
    d.links[i].id = "l" ++ toString (i + 1) := by
  simp [hd.links, LinkStatement.numbered]

theorem Holds.quotable_title {defaultTitle : String} {ls : List Line} {d : Document Binary64}
    (hd : Holds defaultTitle ls d) (hn : ∀ l ∈ ls, '\n' ∉ l.text) :
    d.title = defaultTitle ∨ Quotable d.title := by
  by_cases ht : ∃ l ∈ ls, l.kind = .title
  · obtain ⟨l, hl, hk⟩ := ht
    obtain ⟨a, colon, b, c, -, -, -, -, hquote, htext⟩ := hd.written_title l hl hk
    refine .inr ⟨hquote, fun hc => hn l hl (List.mem_of_mem_drop (i := 5) ?_)⟩
    rw [htext]
    simp [hc]
  · push Not at ht
    exact .inl (hd.default_title ht)

theorem Holds.quotable_links {defaultTitle : String} {ls : List Line} {d : Document Binary64}
    (hd : Holds defaultTitle ls d) (hn : ∀ l ∈ ls, '\n' ∉ l.text) :
    ∀ k ∈ d.links, ∀ label ∈ k.label, Quotable label := by
  intro k hk
  rw [hd.links] at hk
  obtain ⟨i, hi, rfl⟩ := List.mem_mapIdx.mp hk
  obtain ⟨l, hl, hlink⟩ := List.mem_filterMap.mp (List.getElem_mem hi)
  exact LinkStatement.quotable_of_read (History.link?_eq_some_iff.mp hlink).2 (hn l hl)

/-- What a source declares can be written again. -/
theorem plain_of_mem_declared {source : String} {e : Declaration}
    (he : e ∈ declared [] (sourceLines source)) :
    isIdentifier e.id.toList = true ∧ Quotable e.label ∧ (∀ i ∈ e.icon, Bare i) ∧
      ∀ v ∈ e.frame.values, v.isFinite = true := by
  obtain ⟨l, hl, e₀, p, he₀, rfl⟩ := mem_declared he
  have hread := (History.declaration?_eq_some_iff.mp he₀).2
  obtain ⟨hid, hlabel, ha⟩ :=
    Declaration.plain_of_read hread (newline_not_mem_of_mem_sourceLines hl)
  exact ⟨hid, hlabel, ha.icon, ha.finite⟩

/-- References in a document that was read lead where they should. -/
theorem resolved_of_parse {defaultTitle source : String} {d : Document Binary64}
    (h : parse defaultTitle source = .success d) : d.Resolved := by
  obtain ⟨hw, hd⟩ := parse_eq_success_iff.mp h
  exact hd.resolved hw

/-- A document that was read has names and texts that a source can hold. -/
theorem plain_of_parse {defaultTitle source : String} {d : Document Binary64}
    (hparse : parse defaultTitle source = .success d) : Plain defaultTitle d := by
  obtain ⟨hw, hd⟩ := parse_eq_success_iff.mp hparse
  have hresolved := hd.resolved hw
  have hitem {i : Item Binary64} (hi : i ∈ d.items) :
      isIdentifier i.id.toList = true ∧ Quotable i.label := by
    obtain ⟨e, he, rfl⟩ := List.mem_map.mp (hd.items_perm.mem_iff.mp hi)
    obtain ⟨hid, hlabel, -⟩ := plain_of_mem_declared he
    exact ⟨hid, hlabel⟩
  have hicons : ∀ n ∈ d.nodes, ∀ i ∈ n.icon, Bare i := by
    intro n hn
    rw [hd.nodes] at hn
    obtain ⟨e, he, rfl⟩ := List.mem_map.mp hn
    exact (plain_of_mem_declared (List.mem_filter.mp he).1).2.2.1
  exact {
    ids := fun i hi => (hitem hi).1
    title := hd.quotable_title fun l hl => newline_not_mem_of_mem_sourceLines hl
    labels := fun i hi => (hitem hi).2
    link_labels := hd.quotable_links fun l hl => newline_not_mem_of_mem_sourceLines hl
    icons := hicons
    parents := hresolved.parents
    ends := hresolved.ends }

/-- A document that was read is presentable when each of its coordinates is read back from its
spelling. -/
theorem presentable_of_parse {defaultTitle source : String} {d : Document Binary64}
    (hparse : parse defaultTitle source = .success d)
    (hv : ∀ i ∈ d.items, ∀ v ∈ i.frame.values,
      ∃ w, Numeral.real? v.plain = some w ∧ (w == v) = true) : Presentable defaultTitle d := by
  obtain ⟨hw, hd⟩ := parse_eq_success_iff.mp hparse
  have hresolved := hd.resolved hw
  have hplain := plain_of_parse hparse
  have hspelled : ∀ i ∈ d.items, ∀ v ∈ i.frame.values, v.Spelled := by
    intro i hi v hv'
    obtain ⟨e, he, rfl⟩ := List.mem_map.mp (hd.items_perm.mem_iff.mp hi)
    have hfinite := (plain_of_mem_declared he).2.2.2 v hv'
    exact ⟨hfinite, Binary64.isNumeral_plain hfinite, hv _ hi v hv'⟩
  exact {
    ids := hplain.ids
    distinct := hresolved.distinct
    title := hplain.title
    labels := hplain.labels
    link_labels := hplain.link_labels
    icons := hplain.icons
    coordinates := hspelled
    parents := hresolved.parents
    acyclic := hresolved.acyclic
    numbered := hd.numbered
    ends := hresolved.ends }

/-- A document that was read, with coordinates that are read back from their spellings, is written
again. Its text is read as the same document exactly when no link has a keyword as its source and no
node has a brace at the end. -/
theorem parse_write_of_parse {defaultTitle source : String} {d : Document Binary64}
    (hparse : parse defaultTitle source = .success d)
    (hv : ∀ i ∈ d.items, ∀ v ∈ i.frame.values,
      ∃ w, Numeral.real? v.plain = some w ∧ (w == v) = true) :
    ∃ text, write defaultTitle d = .ok text ∧
      ((∃ e, parse defaultTitle text = .success e ∧ (e == d) = true) ↔
        (∀ l ∈ d.links, l.source ≠ "node" ∧ l.source ≠ "container") ∧
          ∀ n ∈ d.nodes, ¬EndsWithBrace n) := by
  have hp := presentable_of_parse hparse hv
  obtain ⟨hwritable, hread, hresolved, he⟩ := (presentable_iff defaultTitle d).mp hp
  have hwrite := write_eq_ok_iff.mpr ⟨hwritable, rfl⟩
  have hlinks : (∀ l ∈ d.links, ¬IsKeyword l.source) ↔
      ∀ l ∈ d.links, l.source ≠ "node" ∧ l.source ≠ "container" :=
    forall₂_congr fun l _ => not_isKeyword_iff l.source
  have hnodes : (∀ n ∈ d.nodes, ¬BraceLast n) ↔ ∀ n ∈ d.nodes, ¬EndsWithBrace n :=
    forall₂_congr fun n hn => not_congr (hp.braceLast_iff hn)
  refine ⟨_, hwrite, ?_⟩
  rw [← hlinks, ← hnodes]
  constructor
  · rintro ⟨e, hagain, -⟩
    exact ((readable_iff defaultTitle d).mp ((parse_write_iff hwrite).mp hagain).1).2
  · intro hmistaken
    have hr := (readable_iff defaultTitle d).mpr ⟨hread, hmistaken⟩
    exact ⟨d.reread, (parse_write_iff hwrite).mpr ⟨hr, hresolved, rfl⟩, he⟩

/-- A node in a block, with a coordinate and a link, comes back. -/
theorem parse_write_of_parse_block :
    ∃ d text e,
      parse "Plan" "container c: \"C\" \x7b\nnode a: \"A\" y=-2.5\n\x7d\na -> c" = .success d ∧
        write "Plan" d = .ok text ∧ parse "Plan" text = .success e ∧ (e == d) = true := by
  have hcheck : (parse "Plan"
      "container c: \"C\" \x7b\nnode a: \"A\" y=-2.5\n\x7d\na -> c").document?.any
      (fun d => (d.items.all fun i => i.frame.values.all fun v =>
          (Numeral.real? v.plain).any (· == v)) &&
        (d.links.all fun l => l.source != "node" && l.source != "container") &&
        d.nodes.all fun n => n.icon.isNone) = true := by
    decide +kernel
  obtain ⟨d, hd, hall⟩ := (Option.any_eq_true _ _).mp hcheck
  simp only [Bool.and_eq_true, List.all_eq_true, Option.any_eq_true, bne_iff_ne,
    Option.isNone_iff_eq_none] at hall
  obtain ⟨⟨hvalues, hsources⟩, hicons⟩ := hall
  have hparse := parse_eq_success_of_document? hd
  obtain ⟨text, hwrite, hiff⟩ := parse_write_of_parse hparse hvalues
  have hbraces : ∀ n ∈ d.nodes, ¬EndsWithBrace n := by
    rintro n hn ⟨⟨i, hi, -⟩, -⟩
    rw [hicons n hn] at hi
    cases hi
  obtain ⟨e, he, heq⟩ := hiff.mpr ⟨hsources, hbraces⟩
  exact ⟨d, text, e, hparse, hwrite, he, heq⟩

/-- A link from a node called `node` is written as a line that is taken for a declaration. -/
theorem parse_write_keyword_source :
    ∃ d text, parse "Untitled Diagram" "node node: \"A\"\nnode->node" = .success d ∧
      (∀ i ∈ d.items, i.frame.values = []) ∧ write "Untitled Diagram" d = .ok text ∧
        ¬∃ e, parse "Untitled Diagram" text = .success e ∧ (e == d) = true := by
  refine ⟨{ title := "Untitled Diagram"
            nodes := [{ id := "node", label := "A" }]
            links := [{ id := "l1", source := "node", target := "node" }] },
    "node node: \"A\"\n\nnode -> node\n", rfl, ?_, rfl, ?_⟩
  · simp [Document.items, Frame.values]
  · rintro ⟨e, he, -⟩
    have hnone : (parse "Untitled Diagram" "node node: \"A\"\n\nnode -> node\n").document?.isNone =
        true := by
      decide
    rw [he] at hnone
    cases hnone

end ArchDiagram.Source
