import ArchDiagram.Icon.Registry
import Mathlib.Data.List.Chain

/-!
Timelines of an icon registry. A call that needs the catalog runs the loader, which makes calls of
its own before it ends, and nothing in the rules keeps these from starting further loads. They start
none, because a registry that is loading is not asked to load. So a timeline has three stretches,
before, during and after the only load, and the registry answers alike within each.
-/

namespace ArchDiagram.Icon

/-- The catalog that a load leaves behind. -/
def Loader.catalog (l : Loader) : Catalog :=
  match l.outcome with
  | .ok c => c
  | .error _ => ∅

/-- A call is made or answered, by the loader or from outside, or a load starts or ends. -/
inductive Event where
  | asked (inside : Bool) (call : Call)
  | answered (inside : Bool) (call : Call) (answer : Answer)
  | started
  | ended

namespace Event

def isStart : Event → Bool
  | asked _ _ => false
  | answered _ _ _ => false
  | started => true
  | ended => false

/-- The side that a call comes from: `true` for the loader. -/
def side? : Event → Option Bool
  | asked inside _ => some inside
  | answered inside _ _ => some inside
  | started => none
  | ended => none

end Event

/-- An event and the status right after it. -/
structure Moment where
  event : Event
  status : Status

/-- The answer that is given to one side, with the status after it. -/
def Moment.answer? (inside : Bool) (m : Moment) : Option (Answer × Status) :=
  match m.event with
  | .answered side _ a => if side = inside then some (a, m.status) else none
  | _ => none

/-- A call that is answered as the registry stands. -/
def quiet (inside : Bool) (s : Status) (c : Call) : List Moment :=
  [⟨.asked inside c, s⟩, ⟨.answered inside c (c.answer s), s⟩]

/-- What happens when calls are made one after the other, by the loader or from outside. A call that
needs a load starts one, the loader makes its calls, and then the catalog takes the place of what
these have left. -/
inductive Happens (l : Loader) : Bool → Status → List Call → List Moment → Status → Prop
  | nil (inside : Bool) (s : Status) : Happens l inside s [] [] s
  | ready {inside : Bool} {s last : Status} {c : Call} {cs : List Call} {ms : List Moment}
      (hc : c.needsLoad s = false) (hcs : Happens l inside s cs ms last) :
      Happens l inside s (c :: cs) (quiet inside s c ++ ms) last
  | load {inside : Bool} {s within last : Status} {c : Call} {cs : List Call}
      {during ms : List Moment} (hc : c.needsLoad s = true)
      (hload : Happens l true .loading l.during during within)
      (hcs : Happens l inside (.loaded l.catalog) cs ms last) :
      Happens l inside s (c :: cs)
        (⟨.asked inside c, s⟩ :: ⟨.started, .loading⟩ :: during ++
          ⟨.ended, .loaded l.catalog⟩ ::
          ⟨.answered inside c (c.answer (.loaded l.catalog)), .loaded l.catalog⟩ :: ms) last

theorem Call.needsLoad_of_not_isUnloaded {s : Status} (h : s.isUnloaded = false) (c : Call) :
    c.needsLoad s = false := by
  unfold needsLoad
  split <;> simp [h]

namespace Happens

variable {l : Loader} {inside : Bool} {s last : Status} {cs : List Call} {ms : List Moment}

/-- While no load is needed nothing changes. -/
theorem of_ready (h : ∀ c ∈ cs, c.needsLoad s = false) :
    Happens l inside s cs (cs.flatMap (quiet inside s)) s := by
  induction cs with
  | nil => exact .nil inside s
  | cons c cs ih =>
    obtain ⟨hc, hcs⟩ := List.forall_mem_cons.mp h
    exact .ready hc (ih hcs)

/-- What happens is determined by the calls. -/
theorem unique {ms' : List Moment} {last' : Status} (h : Happens l inside s cs ms last)
    (h' : Happens l inside s cs ms' last') : ms' = ms ∧ last' = last := by
  induction h generalizing ms' last' with
  | nil =>
    cases h'
    exact ⟨rfl, rfl⟩
  | ready hc _ ih =>
    cases h' with
    | ready _ hcs' =>
      obtain ⟨rfl, rfl⟩ := ih hcs'
      exact ⟨rfl, rfl⟩
    | load hc' => simp [hc] at hc'
  | load hc _ _ ihload ih =>
    cases h' with
    | ready hc' => simp [hc] at hc'
    | load _ hload' hcs' =>
      obtain ⟨rfl, rfl⟩ := ihload hload'
      obtain ⟨rfl, rfl⟩ := ih hcs'
      exact ⟨rfl, rfl⟩

/-- Nothing changes in a registry that is loading or has loaded. -/
theorem eq_of_not_isUnloaded (hs : s.isUnloaded = false) (h : Happens l inside s cs ms last) :
    ms = cs.flatMap (quiet inside s) ∧ last = s :=
  (of_ready fun c _ => c.needsLoad_of_not_isUnloaded hs).unique h

end Happens

/-- The stretches of a timeline that starts unloaded: before the load, which there need not be,
during it, and after it. -/
inductive Stretches (l : Loader) : List Call → List Moment → Status → Prop
  | unloaded (cs : List Call) :
      Stretches l cs (cs.flatMap (quiet false .unloaded)) .unloaded
  | loaded (before : List Call) (c : Call) (after : List Call) :
      Stretches l (before ++ c :: after)
        (before.flatMap (quiet false .unloaded) ++ ⟨.asked false c, .unloaded⟩ ::
          (⟨.started, .loading⟩ :: l.during.flatMap (quiet true .loading)) ++
          ⟨.ended, .loaded l.catalog⟩ ::
          ⟨.answered false c (c.answer (.loaded l.catalog)), .loaded l.catalog⟩ ::
          after.flatMap (quiet false (.loaded l.catalog))) (.loaded l.catalog)

theorem Happens.stretches {l : Loader} {cs : List Call} {ms : List Moment} {last : Status}
    (h : Happens l false .unloaded cs ms last) : Stretches l cs ms last := by
  induction cs generalizing ms with
  | nil =>
    cases h
    exact .unloaded []
  | cons c cs ih =>
    cases h with
    | ready _ hcs =>
      cases ih hcs with
      | unloaded => exact .unloaded (c :: cs)
      | loaded before c' after =>
        have hlater := Stretches.loaded (l := l) (c :: before) c' after
        simpa [List.append_assoc] using hlater
    | load _ hload hcs =>
      -- the calls of the loader and those after the load start no other
      obtain ⟨rfl, -⟩ := hload.eq_of_not_isUnloaded rfl
      obtain ⟨rfl, rfl⟩ := hcs.eq_of_not_isUnloaded rfl
      exact .loaded [] c cs

/-- One step on the way from unloaded to loaded. -/
inductive Status.Moves : Status → Status → Prop
  | stay (s : Status) : Moves s s
  | begin : Moves unloaded loading
  | finish (c : Catalog) : Moves loading (loaded c)

namespace Status

/-- All that `s` knows is known to `t`. -/
def Keeps (s t : Status) : Prop :=
  ∀ name, s.knows name = true → t.knows name = true

instance : Trans Keeps Keeps Keeps :=
  ⟨fun hst htu name hname => htu name (hst name hname)⟩

theorem keeps_of_moves {s t : Status} (h : s.Moves t) : s.Keeps t := by
  intro name hknown
  cases h with
  | stay => exact hknown
  | begin => exact hknown
  | finish c =>
    -- only base icons are known before a catalog is there
    have hbase : isBase name = true := by simpa [knows, catalog] using hknown
    simp [knows, hbase]

/-- The names of a status are those that it knows, each once, with the base icons first. -/
structure Listed (s : Status) : Prop where
  base : Icon.base.names <+: s.names
  distinct : s.names.Nodup
  known : ∀ name, name ∈ s.names ↔ s.knows name = true

theorem listed (s : Status) : s.Listed := by
  have hbase {name : String} : name ∈ Icon.base.names ↔ isBase name = true := by
    rw [isBase, List.contains_iff_mem]
  refine ⟨List.prefix_append _ _, ?_, fun name => ?_⟩
  · refine List.nodup_append.mpr ⟨Icon.base.distinct, s.catalog.distinct.filter _, ?_⟩
    rintro name hname _ hmem rfl
    have hnot := (List.mem_filter.mp hmem).2
    rw [hbase.mp hname] at hnot
    cases hnot
  · rw [names, knows, List.mem_append, List.mem_filter, hbase, Bool.or_eq_true,
      List.contains_iff_mem]
    cases isBase name <;> simp

/-- A name is drawn as itself when it is known and as the generic icon otherwise. -/
theorem resolve_some {name : String} (hname : name ≠ "") (s : Status) :
    s.resolve (some name) = if s.knows name then name else generic := by
  simp [resolve, hname]

end Status

/-- What holds along a timeline that starts unloaded. -/
structure Automaton (l : Loader) (ms : List Moment) : Prop where
  once : ms.countP (·.event.isStart) ≤ 1
  moves : (.unloaded :: ms.map (·.status)).IsChain Status.Moves
  inside : ∀ m ∈ ms, m.event.side? = some true → m.status = .loading
  outside : ∀ m ∈ ms, m.event.side? = some false → m.status ≠ .loading
  catalog : ∀ m ∈ ms, ∀ c, m.status = .loaded c → c = l.catalog
  known : ms.Pairwise fun m m' => m.status.Keeps m'.status
  answers : ∀ m ∈ ms, ∀ inside c a, m.event = .answered inside c a → a = c.answer m.status
  resolves : ∀ m ∈ ms, ∀ inside name loadMissing a,
    m.event = .answered inside (.resolve (some name) loadMissing) a → name ≠ "" →
      (a = .icon name ↔ m.status.knows name = true) ∧
        (m.status.knows name = false → a = .icon generic)
  listed : ∀ m ∈ ms, m.status.Listed

/-- The statuses in which a side finds the registry: the loader while it is loading, all others
before or after. -/
def Loader.Meets (l : Loader) (inside : Bool) (s : Status) : Prop :=
  match inside with
  | true => s = .loading
  | false => s = .unloaded ∨ s = .loaded l.catalog

theorem Loader.Meets.cases {l : Loader} {inside : Bool} {s : Status} (h : l.Meets inside s) :
    s = .unloaded ∨ s = .loading ∨ s = .loaded l.catalog := by
  cases inside with
  | true => exact .inr (.inl h)
  | false => exact h.imp_right .inr

/-- What a moment has to be: calls are made and answered where their side finds the registry, and
the answer is the one that the registry gives then. -/
def Moment.Fitting (l : Loader) (m : Moment) : Prop :=
  match m.event with
  | .asked inside _ => l.Meets inside m.status
  | .answered inside c a => l.Meets inside m.status ∧ a = c.answer m.status
  | .started => m.status = .loading
  | .ended => m.status = .loaded l.catalog

theorem fitting_of_mem_quiet {l : Loader} {inside : Bool} {s : Status} (hs : l.Meets inside s)
    {cs : List Call} {m : Moment} (hm : m ∈ cs.flatMap (quiet inside s)) : m.Fitting l := by
  obtain ⟨c, -, hm⟩ := List.mem_flatMap.mp hm
  rcases List.mem_pair.mp hm with rfl | rfl
  · exact hs
  · exact ⟨hs, rfl⟩

theorem Stretches.fitting {l : Loader} {cs : List Call} {ms : List Moment} {last : Status}
    (h : Stretches l cs ms last) : ∀ m ∈ ms, m.Fitting l := by
  have hbefore : l.Meets false .unloaded := .inl rfl
  have hduring : l.Meets true .loading := rfl
  have hafter : l.Meets false (.loaded l.catalog) := .inr rfl
  intro m hm
  cases h with
  | unloaded => exact fitting_of_mem_quiet hbefore hm
  | loaded before c after =>
    simp only [List.cons_append, List.append_assoc, List.mem_append, List.mem_cons] at hm
    rcases hm with hm | rfl | rfl | hm | rfl | rfl | hm
    · exact fitting_of_mem_quiet hbefore hm
    · exact hbefore
    · exact rfl
    · exact fitting_of_mem_quiet hduring hm
    · exact rfl
    · exact ⟨hafter, rfl⟩
    · exact fitting_of_mem_quiet hafter hm

theorem countP_isStart_quiet (inside : Bool) (s : Status) (cs : List Call) :
    (cs.flatMap (quiet inside s)).countP (·.event.isStart) = 0 := by
  rw [List.countP_eq_zero]
  intro m hm
  obtain ⟨c, -, hm⟩ := List.mem_flatMap.mp hm
  rcases List.mem_pair.mp hm with rfl | rfl <;> exact Bool.false_ne_true

theorem Stretches.countP_isStart_le {l : Loader} {cs : List Call} {ms : List Moment} {last : Status}
    (h : Stretches l cs ms last) : ms.countP (·.event.isStart) ≤ 1 := by
  cases h with
  | unloaded =>
    rw [countP_isStart_quiet]
    exact Nat.zero_le 1
  | loaded before c after =>
    simp only [List.countP_append, List.countP_cons, countP_isStart_quiet]
    simp [Event.isStart]

/-- Calls that are answered as the registry stands do not move it. -/
theorem isChain_quiet {s : Status} {rest : List Status} (h : (s :: rest).IsChain Status.Moves)
    (inside : Bool) (cs : List Call) :
    (s :: ((cs.flatMap (quiet inside s)).map (·.status) ++ rest)).IsChain Status.Moves := by
  induction cs with
  | nil => exact h
  | cons c cs ih => exact .cons_cons (.stay s) (.cons_cons (.stay s) ih)

theorem Stretches.isChain {l : Loader} {cs : List Call} {ms : List Moment} {last : Status}
    (h : Stretches l cs ms last) : (.unloaded :: ms.map (·.status)).IsChain Status.Moves := by
  cases h with
  | unloaded =>
    have hall := isChain_quiet (.singleton Status.unloaded) false cs
    rwa [List.append_nil] at hall
  | loaded before c after =>
    -- from the end of the timeline to its start
    have hafter := isChain_quiet (.singleton (Status.loaded l.catalog)) false after
    have hduring := isChain_quiet
      (.cons_cons (.finish l.catalog) (.cons_cons (.stay _) hafter)) true l.during
    have hbefore := isChain_quiet
      (.cons_cons (.stay .unloaded) (.cons_cons .begin hduring)) false before
    simpa [List.append_assoc] using hbefore

/-- What is known stays known on the way from unloaded to loaded. -/
theorem pairwise_keeps {ms : List Moment}
    (h : (.unloaded :: ms.map (·.status)).IsChain Status.Moves) :
    ms.Pairwise fun m m' => m.status.Keeps m'.status := by
  have hkeeps : (.unloaded :: ms.map (·.status)).IsChain Status.Keeps :=
    h.imp fun _ _ hmoves => Status.keeps_of_moves hmoves
  exact List.pairwise_map.mp hkeeps.pairwise.tail

/-- A timeline that starts unloaded runs like an automaton. -/
theorem automaton_of_stretches {l : Loader} {cs : List Call} {ms : List Moment} {last : Status}
    (h : Stretches l cs ms last) : Automaton l ms := by
  have hfitting := h.fitting
  have hstatus : ∀ m ∈ ms,
      m.status = .unloaded ∨ m.status = .loading ∨ m.status = .loaded l.catalog := by
    intro m hm
    have hm := hfitting m hm
    obtain ⟨event, status⟩ := m
    cases event with
    | asked => exact Loader.Meets.cases hm
    | answered => exact Loader.Meets.cases hm.1
    | started => exact .inr (.inl hm)
    | ended => exact .inr (.inr hm)
  have hside {m : Moment} (hm : m ∈ ms) {inside : Bool} (hevent : m.event.side? = some inside) :
      l.Meets inside m.status := by
    have hm := hfitting m hm
    obtain ⟨event, status⟩ := m
    cases event with
    | asked => exact Option.some.inj hevent ▸ hm
    | answered => exact Option.some.inj hevent ▸ hm.1
    | started => cases hevent
    | ended => cases hevent
  have hanswer {m : Moment} (hm : m ∈ ms) {inside : Bool} {c : Call} {a : Answer}
      (hevent : m.event = .answered inside c a) : a = c.answer m.status := by
    have hm := hfitting m hm
    rw [Moment.Fitting, hevent] at hm
    exact hm.2
  refine ⟨h.countP_isStart_le, h.isChain, fun m hm => hside hm, fun m hm hevent => ?_,
    fun m hm c hc => ?_, pairwise_keeps h.isChain, fun m hm _ _ _ => hanswer hm, ?_,
    fun m _ => m.status.listed⟩
  · rcases hside hm hevent with hs | hs <;> simp [hs]
  · rcases hstatus m hm with hs | hs | hs <;> rw [hs] at hc <;> cases hc
    rfl
  · intro m hm inside name loadMissing a hevent hname
    rw [hanswer hm hevent, Call.answer, Status.resolve_some hname, Answer.icon.injEq]
    refine ⟨?_, fun hknown => by simp [hknown]⟩
    by_cases hknown : m.status.knows name = true
    · simp [hknown]
    · -- the generic icon is known, so it does not stand for itself here
      rw [if_neg hknown]
      refine iff_of_false (fun heq => hknown ?_) hknown
      rw [← heq]
      rfl

namespace Registry

/-- Calls that start no load leave the registry as it is. -/
theorem runWith_id (r : Registry) (cs : List Call) :
    runWith id r cs = (cs.map fun c => (c.answer r.status, r.status), r) := by
  induction cs with
  | nil => rfl
  | cons c cs ih =>
    have hperform : performWith id r c = (c.answer r.status, r) := by
      rw [performWith]
      split <;> rfl
    rw [runWith, hperform]
    dsimp only
    rw [ih]
    rfl

theorem load_eq (r : Registry) :
    r.load = { r with
      status := .loaded r.loader.catalog
      loads := r.loads ++ [⟨r.loader.during.map fun c => (c.answer .loading, .loading),
        r.loader.outcome⟩] } := by
  rw [load, runWith_id]
  rfl

theorem run_cons (r : Registry) (c : Call) (cs : List Call) :
    r.run (c :: cs) =
      (((r.perform c).1, (r.perform c).2.status) :: ((r.perform c).2.run cs).1,
        ((r.perform c).2.run cs).2) :=
  rfl

end Registry

/-- A run of a registry gives the answers of a timeline. Those given to the loader are kept with the
loads. -/
structure Recorded (r : Registry) (ms : List Moment) (last : Status)
    (result : List (Answer × Status) × Registry) : Prop where
  answers : result.1 = ms.filterMap (·.answer? false)
  status : result.2.status = last
  loads : result.2.loads.length = r.loads.length + ms.countP (·.event.isStart)
  during : result.2.loads.flatMap (·.during) =
    r.loads.flatMap (·.during) ++ ms.filterMap (·.answer? true)

theorem filterMap_answer?_quiet (side inside : Bool) (s : Status) (cs : List Call) :
    (cs.flatMap (quiet inside s)).filterMap (·.answer? side) =
      if inside = side then cs.map fun c => (c.answer s, s) else [] := by
  induction cs with
  | nil => simp
  | cons c cs ih =>
    rw [List.flatMap_cons, List.filterMap_append, ih]
    cases inside <;> cases side <;> rfl

/-- Every run has a timeline. -/
theorem exists_happens (r : Registry) (cs : List Call) :
    ∃ ms last, Happens r.loader false r.status cs ms last ∧ Recorded r ms last (r.run cs) := by
  induction cs generalizing r with
  | nil =>
    exact ⟨[], r.status, .nil false r.status, rfl, rfl, by simp [Registry.run, Registry.runWith],
      by simp [Registry.run, Registry.runWith]⟩
  | cons c cs ih =>
    rw [Registry.run_cons]
    cases hc : c.needsLoad r.status with
    | false =>
      have hperform : r.perform c = (c.answer r.status, r) := by
        rw [Registry.perform, Registry.performWith, hc]
        rfl
      obtain ⟨ms, last, hhappens, hrun⟩ := ih r
      refine ⟨_, last, .ready hc hhappens, ?_⟩
      rw [hperform]
      refine ⟨?_, hrun.status, ?_, ?_⟩
      · rw [hrun.answers]
        rfl
      · rw [hrun.loads]
        rfl
      · rw [hrun.during]
        rfl
    | true =>
      have hperform : r.perform c = (c.answer r.load.status, r.load) := by
        rw [Registry.perform, Registry.performWith, hc]
        rfl
      obtain ⟨ms, last, hhappens, hrun⟩ := ih r.load
      have hduring : Happens r.loader true .loading r.loader.during
          (r.loader.during.flatMap (quiet true .loading)) .loading :=
        .of_ready fun c _ => c.needsLoad_of_not_isUnloaded rfl
      rw [r.load_eq] at hhappens hrun
      refine ⟨_, last, .load hc hduring hhappens, ?_⟩
      rw [hperform, r.load_eq]
      refine ⟨?_, hrun.status, ?_, ?_⟩
      · rw [hrun.answers, List.filterMap_append]
        change _ = (r.loader.during.flatMap (quiet true .loading)).filterMap (·.answer? false) ++ _
        rw [filterMap_answer?_quiet]
        rfl
      · rw [hrun.loads]
        simp only [List.countP_append, List.countP_cons, countP_isStart_quiet, List.length_append,
          List.length_singleton]
        simp [Event.isStart]
        omega
      · rw [hrun.during, List.filterMap_append, List.flatMap_append, List.append_assoc]
        change _ = _ ++
          ((r.loader.during.flatMap (quiet true .loading)).filterMap (·.answer? true) ++ _)
        rw [filterMap_answer?_quiet, List.flatMap_singleton, if_pos rfl]
        rfl

/-- The loader runs at most once, whatever it and others ask in between, and the registry only moves
from unloaded through loading to loaded. Calls of the loader find it loading and no other call does;
a name that is known stays known, and the icon of a name is the name exactly when it is known right
after. -/
theorem automaton_of_calls (l : Loader) (cs : List Call) :
    ∃ ms last, Happens l false .unloaded cs ms last ∧
      (∀ ms' last', Happens l false .unloaded cs ms' last' → ms' = ms ∧ last' = last) ∧
      Recorded { loader := l } ms last (({ loader := l } : Registry).run cs) ∧ Automaton l ms := by
  obtain ⟨ms, last, hhappens, hrun⟩ := exists_happens { loader := l } cs
  exact ⟨ms, last, hhappens, fun ms' last' h => hhappens.unique h, hrun,
    automaton_of_stretches hhappens.stretches⟩

/-- A loader that asks for an icon of its catalog while it loads it: the icon is not known yet, the
load goes on, and outside it is known. -/
theorem automaton_of_calls_reentrant :
    ∃ (l : Loader) (ms : List Moment),
      l.during = [.preload, .resolve (some "AwsS3") true] ∧ l.catalog.names.Nodup ∧
        Happens l false .unloaded [.isKnown "AwsS3", .resolve (some "AwsS3") true, .preload] ms
          (.loaded l.catalog) ∧
        Automaton l ms ∧ ms.countP (·.event.isStart) = 1 ∧
        ms.filterMap (·.answer? true) = [(.done, .loading), (.icon "Generic", .loading)] ∧
        ms.filterMap (·.answer? false) = [(.known false, .unloaded),
          (.icon "AwsS3", .loaded l.catalog), (.done, .loaded l.catalog)] := by
  let l : Loader :=
    { during := [.preload, .resolve (some "AwsS3") true]
      outcome := .ok { icons := [("AwsS3", "S3")], distinct := by decide } }
  obtain ⟨ms, last, hhappens, -, hrun, hautomaton⟩ := automaton_of_calls l
    [.isKnown "AwsS3", .resolve (some "AwsS3") true, .preload]
  obtain rfl : .loaded l.catalog = last := hrun.status
  have hloads : 1 = 0 + ms.countP (·.event.isStart) := hrun.loads
  exact ⟨l, ms, rfl, l.catalog.distinct, hhappens, hautomaton, by omega, hrun.during.symm,
    hrun.answers.symm⟩

end ArchDiagram.Icon
