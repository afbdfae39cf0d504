import ArchDiagram.Proofs.History

/-!
Renumbered lines. The number of a line is carried along and decides nothing: when lines are
numbered otherwise, the same declarations are kept, the same references are missed and the same
document comes out, and every diagnostic moves to the new number of its line.
-/

namespace ArchDiagram

/-- Walks whose steps correspond give the same result. -/
theorem walk?_of_correspond {σ τ β : Type} {step : σ → σ ⊕ β} {step' : τ → τ ⊕ β} {f : σ → τ}
    (h : ∀ s, step' (f s) = (step s).map f id) (n : Nat) (s : σ) :
    walk? step' n (f s) = walk? step n s := by
  induction n generalizing s with
  | zero => rfl
  | succ n ih =>
    rw [walk?, walk?, h]
    cases step s with
    | inl t => exact ih t
    | inr b => rfl

namespace Source

open Text

variable (ρ : Int → Int)

def Line.renumber (l : Line) : Line :=
  { l with number := ρ l.number }

def Declaration.renumber (d : Declaration) : Declaration :=
  { d with line := ρ d.line }

def LinkStatement.renumber (k : LinkStatement) : LinkStatement :=
  { k with line := ρ k.line }

def Title.renumber (t : Title) : Title :=
  { t with line := ρ t.line }

def Block.renumber (b : Block) : Block :=
  { b with line := ρ b.line }

theorem Declaration.read_renumber (l : Line) :
    Declaration.read (l.renumber ρ) = (Declaration.read l).map (Declaration.renumber ρ) := by
  unfold Declaration.read
  dsimp only [Line.renumber]
  split
  · rfl
  · split
    · rfl
    · split
      · rfl
      · split
        · rfl
        · rfl

theorem LinkStatement.read_renumber (l : Line) :
    LinkStatement.read (l.renumber ρ) = (LinkStatement.read l).map (LinkStatement.renumber ρ) := by
  unfold LinkStatement.read
  dsimp only [Line.renumber]
  split
  · rename_i i arrow _
    cases readEnd .source arrow (l.text.take i) with
    | error e => rfl
    | ok source =>
      dsimp only [bind, Except.bind]
      split
      · cases readEnd .target arrow (trim (l.text.drop (i + arrow.chars.length))) <;> rfl
      · rename_i colon _
        cases readEnd .target arrow
            ((trim (l.text.drop (i + arrow.chars.length))).take colon) with
        | error e => rfl
        | ok target =>
          dsimp only
          cases readLinkLabel source arrow target
              ((trim (l.text.drop (i + arrow.chars.length))).drop (colon + 1)) <;> rfl
  · rfl

theorem Line.declaration?_renumber (l : Line) :
    (l.renumber ρ).declaration? = l.declaration?.map (Declaration.renumber ρ) := by
  unfold Line.declaration?
  rw [Declaration.read_renumber, show (l.renumber ρ).kind = l.kind from rfl]
  split
  · cases Declaration.read l <;> rfl
  · rfl

theorem Line.link?_renumber (l : Line) :
    (l.renumber ρ).link? = l.link?.map (LinkStatement.renumber ρ) := by
  unfold Line.link?
  rw [LinkStatement.read_renumber, show (l.renumber ρ).kind = l.kind from rfl]
  split
  · cases LinkStatement.read l <;> rfl
  · rfl

theorem Line.title?_renumber (l : Line) :
    (l.renumber ρ).title? = l.title?.map (Title.renumber ρ) := by
  unfold Line.title?
  rw [show readTitle (l.renumber ρ) = readTitle l from rfl,
    show (l.renumber ρ).kind = l.kind from rfl]
  split
  · cases readTitle l <;> rfl
  · rfl

theorem Line.declares_renumber (id : String) (l : Line) :
    (l.renumber ρ).declares id = l.declares id := by
  unfold Line.declares
  rw [Line.declaration?_renumber]
  cases l.declaration? <;> rfl

namespace History

theorem first?_renumber (h : List Line) (l : Line) :
    first? (h.map (Line.renumber ρ)) (l.renumber ρ) =
      (first? h l).map (Declaration.renumber ρ) := by
  have hany (id : String) :
      (h.map (Line.renumber ρ)).any (Line.declares id) = h.any (Line.declares id) := by
    rw [List.any_map]
    congr 1
    funext k
    exact Line.declares_renumber ρ id k
  unfold first?
  rw [Line.declaration?_renumber]
  cases l.declaration? with
  | none => rfl
  | some d =>
    rw [Option.map_some, Option.filter_some, Option.filter_some, hany]
    change (if !h.any (Line.declares d.id) then _ else _) = _
    split <;> rfl

theorem openBlocks_renumber (h : List Line) :
    openBlocks (h.map (Line.renumber ρ)) = (openBlocks h).map (Block.renumber ρ) := by
  induction h with
  | nil => rfl
  | cons l before ih =>
    rw [List.map_cons, openBlocks, openBlocks, ih, first?_renumber,
      show (l.renumber ρ).opens = l.opens from rfl, show (l.renumber ρ).closes = l.closes from rfl]
    split
    · cases first? before l <;> rfl
    · split
      · exact List.map_tail.symm
      · rfl

theorem enclosing?_renumber (h : List Line) :
    enclosing? (h.map (Line.renumber ρ)) = enclosing? h := by
  rw [enclosing?, enclosing?, openBlocks_renumber, List.findSome?_map]
  rfl

theorem placed?_renumber (h : List Line) (l : Line) :
    placed? (h.map (Line.renumber ρ)) (l.renumber ρ) =
      (placed? h l).map (Declaration.renumber ρ) := by
  rw [placed?, placed?, first?_renumber, enclosing?_renumber]
  cases first? h l <;> rfl

theorem kept_renumber (h : List Line) :
    kept (h.map (Line.renumber ρ)) = (kept h).map (Declaration.renumber ρ) := by
  induction h with
  | nil => rfl
  | cons l before ih =>
    rw [List.map_cons, kept, kept, ih, placed?_renumber, List.map_append]
    cases placed? before l <;> rfl

theorem map_id_kept_renumber (h : List Line) :
    (kept (h.map (Line.renumber ρ))).map (·.id) = (kept h).map (·.id) := by
  rw [kept_renumber, List.map_map]
  rfl

theorem links_renumber (h : List Line) :
    links (h.map (Line.renumber ρ)) = (links h).map (LinkStatement.renumber ρ) := by
  induction h with
  | nil => rfl
  | cons l before ih =>
    rw [List.map_cons, links_cons, links_cons, ih, Line.link?_renumber, List.map_append]
    cases l.link? <;> rfl

theorem title?_renumber (h : List Line) :
    title? (h.map (Line.renumber ρ)) = (title? h).map (Title.renumber ρ) := by
  induction h with
  | nil => rfl
  | cons l before ih =>
    rw [List.map_cons, title?_cons, title?_cons, ih, Line.title?_renumber]
    cases title? before <;> rfl

/-- A line has a fault whatever the numbers are, though the fault may name one. -/
theorem isSome_fault?_renumber (h : List Line) (l : Line) :
    (fault? (h.map (Line.renumber ρ)) (l.renumber ρ)).isSome = (fault? h l).isSome := by
  unfold fault?
  rw [show (l.renumber ρ).kind = l.kind from rfl, kept_renumber, title?_renumber,
    openBlocks_renumber, Declaration.read_renumber, LinkStatement.read_renumber,
    show readTitle (l.renumber ρ) = readTitle l from rfl]
  cases l.kind with
  | declaration =>
    cases Declaration.read l with
    | ok d =>
      dsimp only [Except.map]
      rw [List.find?_map, Option.isSome_map, Option.isSome_map, Option.isSome_map]
      rfl
    | error e => cases e <;> rfl
  | link => cases LinkStatement.read l <;> rfl
  | title =>
    cases readTitle l with
    | ok text => simp
    | error f => rfl
  | blockEnd => simp
  | comment => rfl
  | blank => rfl
  | unknown => rfl

theorem map_line_diagnostics_cons (l : Line) (before : List Line) :
    (diagnostics (l :: before)).map (·.line) =
      (diagnostics before).map (·.line) ++
        if (fault? before l).isSome then [l.number] else [] := by
  rw [diagnostics, List.map_append]
  cases fault? before l <;> rfl

/-- The diagnostics of the lines move with them. -/
theorem map_line_diagnostics_renumber (h : List Line) :
    (diagnostics (h.map (Line.renumber ρ))).map (·.line) =
      ((diagnostics h).map (·.line)).map ρ := by
  induction h with
  | nil => rfl
  | cons l before ih =>
    rw [List.map_cons, map_line_diagnostics_cons, map_line_diagnostics_cons, ih,
      isSome_fault?_renumber, List.map_append]
    split <;> rfl

end History

theorem linkDiagnostics_renumber (known : List String) (ks : List LinkStatement) :
    (linkDiagnostics known (ks.map (LinkStatement.renumber ρ))).map (·.line) =
      ((linkDiagnostics known ks).map (·.line)).map ρ := by
  induction ks with
  | nil => rfl
  | cons k ks ih =>
    have hfirst : ((endFaults known (k.renumber ρ)).map
        (⟨(k.renumber ρ).line, ·⟩ : Fault → Diagnostic)).map (·.line) =
          (((endFaults known k).map (⟨k.line, ·⟩ : Fault → Diagnostic)).map (·.line)).map ρ := by
      rw [List.map_map, List.map_map, List.map_map]
      rfl
    simp only [linkDiagnostics, List.map_cons, List.flatMap_cons, List.map_append] at ih ⊢
    rw [ih, hfirst]

theorem resolvedLinks_renumber (known : List String) (ks : List LinkStatement) :
    resolvedLinks known (ks.map (LinkStatement.renumber ρ)) = resolvedLinks known ks := by
  -- the ends of a link decide whether it is kept, and its place gives the identifier
  have hkeep : (fun k => (endFaults known k).isEmpty) ∘ LinkStatement.renumber ρ =
      fun k => (endFaults known k).isEmpty := rfl
  rw [resolvedLinks, resolvedLinks, List.filter_map, hkeep]
  apply List.ext_getElem
  · simp
  · intro i _ _
    simp [LinkStatement.renumber]

theorem container?_renumber (ds : List Declaration) (id : String) :
    container? (ds.map (Declaration.renumber ρ)) id =
      (container? ds id).map (Declaration.renumber ρ) := by
  rw [container?, ← List.map_reverse, List.find?_map]
  rfl

theorem isNodeId_renumber (ds : List Declaration) (id : String) :
    isNodeId (ds.map (Declaration.renumber ρ)) id = isNodeId ds id := by
  rw [isNodeId, List.any_map]
  rfl

def Ascent.renumber (a : Ascent) : Ascent :=
  { a with current := a.current.map (Declaration.renumber ρ) }

theorem Ascent.step_renumber (ds : List Declaration) (start : String) (a : Ascent) :
    Ascent.step (ds.map (Declaration.renumber ρ)) start (a.renumber ρ) =
      (Ascent.step ds start a).map (Ascent.renumber ρ) id := by
  obtain ⟨current, seen⟩ := a
  cases current with
  | none => rfl
  | some c =>
    cases hp : c.parent with
    | none => simp [Ascent.step, Ascent.renumber, Declaration.renumber, hp]
    | some p =>
      have hparent : (c.renumber ρ).parent = some p := hp
      simp only [Ascent.step, Ascent.renumber, hp, hparent, Option.map_some, container?_renumber]
      by_cases hstart : p = start
      · simp [hstart]
      · by_cases hseen : p ∈ seen
        · simp [hstart, hseen]
        · simp [hstart, hseen, Ascent.renumber, Declaration.renumber]

theorem inCycle_renumber (ds : List Declaration) (d : Declaration) :
    inCycle (ds.map (Declaration.renumber ρ)) (d.renumber ρ) = inCycle ds d := by
  have hwalk := walk?_of_correspond (Ascent.step_renumber ρ ds d.id) (ds.length + 3)
    ⟨d.parent.bind (container? ds), [d.id]⟩
  have hstart : (Ascent.mk (d.parent.bind (container? ds)) [d.id]).renumber ρ =
      ⟨(d.renumber ρ).parent.bind (container? (ds.map (Declaration.renumber ρ))),
        [(d.renumber ρ).id]⟩ := by
    change Ascent.mk _ [d.id] = Ascent.mk (d.parent.bind _) [d.id]
    cases d.parent with
    | none => rfl
    | some p => rw [Option.bind_some, Option.bind_some, container?_renumber]
  rw [inCycle, inCycle, List.length_map, ← hstart]
  exact congrArg (·.getD false) hwalk

theorem parentFault?_renumber (ds : List Declaration) (d : Declaration) :
    parentFault? (ds.map (Declaration.renumber ρ)) (d.renumber ρ) = parentFault? ds d := by
  unfold parentFault?
  simp only [isNodeId_renumber, container?_renumber, Option.isNone_map, inCycle_renumber]
  rfl

theorem parentDiagnostics_renumber (ds : List Declaration) :
    (parentDiagnostics (ds.map (Declaration.renumber ρ))).map (·.line) =
      ((parentDiagnostics ds).map (·.line)).map ρ := by
  unfold parentDiagnostics
  rw [List.filterMap_map, List.map_filterMap, List.map_filterMap, List.map_filterMap]
  congr 1
  funext d
  change ((parentFault? _ (d.renumber ρ)).map _).map _ = _
  rw [parentFault?_renumber]
  cases parentFault? ds d <;> rfl

namespace History

/-- All diagnostics of a scan move with the lines. -/
theorem map_line_close_renumber (h : List Line) :
    (scanner (h.map (Line.renumber ρ))).close.errors.map (·.line) =
      ((scanner h).close.errors.map (·.line)).map ρ := by
  have hunclosed : (scanner (h.map (Line.renumber ρ))).unclosed.map (·.line) =
      ((scanner h).unclosed.map (·.line)).map ρ := by
    simp only [Scanner.unclosed, scanner, openBlocks_renumber, List.map_map, ← List.map_reverse]
    rfl
  have hlinks : (linkDiagnostics ((kept (h.map (Line.renumber ρ))).map (·.id))
      (links (h.map (Line.renumber ρ)))).map (·.line) =
        ((linkDiagnostics ((kept h).map (·.id)) (links h)).map (·.line)).map ρ := by
    rw [map_id_kept_renumber, links_renumber, linkDiagnostics_renumber]
  have hparents : (parentDiagnostics (kept (h.map (Line.renumber ρ)))).map (·.line) =
      ((parentDiagnostics (kept h)).map (·.line)).map ρ := by
    rw [kept_renumber, parentDiagnostics_renumber]
  change (diagnostics (h.map (Line.renumber ρ)) ++ (scanner (h.map (Line.renumber ρ))).unclosed ++
      (linkDiagnostics ((kept (h.map (Line.renumber ρ))).map (·.id))
        (links (h.map (Line.renumber ρ))) ++
          parentDiagnostics (kept (h.map (Line.renumber ρ))))).map (·.line) =
    ((diagnostics h ++ (scanner h).unclosed ++
      (linkDiagnostics ((kept h).map (·.id)) (links h) ++ parentDiagnostics (kept h))).map
        (·.line)).map ρ
  simp only [List.map_append (f := fun e : Diagnostic => e.line), List.map_append (f := ρ),
    map_line_diagnostics_renumber, hunclosed, hlinks, hparents]

theorem document_renumber (defaultTitle : String) (h : List Line) :
    (scanner (h.map (Line.renumber ρ))).document defaultTitle =
      (scanner h).document defaultTitle := by
  change Document.mk _ _ _ (resolvedLinks ((kept (h.map (Line.renumber ρ))).map (·.id))
    (links (h.map (Line.renumber ρ)))) = Document.mk _ _ _ _
  rw [map_id_kept_renumber, links_renumber, resolvedLinks_renumber]
  change Document.mk (((title? (h.map (Line.renumber ρ))).map (·.text)).getD defaultTitle)
    (((kept (h.map (Line.renumber ρ))).filter (!·.isContainer)).map Declaration.toNode)
    (((kept (h.map (Line.renumber ρ))).filter (·.isContainer)).map Declaration.toItem) _ = _
  rw [title?_renumber, kept_renumber, List.filter_map, List.filter_map, List.map_map, List.map_map,
    Option.map_map]
  rfl

end History

end Source

end ArchDiagram
