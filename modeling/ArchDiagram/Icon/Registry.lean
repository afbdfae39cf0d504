import ArchDiagram.Icon.Library

/-!
Looking up icon tags. Base icons are always known; the catalog is loaded by the first call that
needs it, once, and a load that fails counts as an empty catalog. A loader may itself make calls
before it ends: these find the registry in the state `loading` and never start another load.
-/

namespace ArchDiagram.Icon

inductive Status where
  | unloaded
  | loading
  | loaded (catalog : Catalog)

namespace Status

def name : Status → String
  | unloaded => "unloaded"
  | loading => "loading"
  | loaded _ => "loaded"

/-- The catalog, as far as it can be used. -/
def catalog : Status → Catalog
  | loaded c => c
  | _ => ∅

def isUnloaded : Status → Bool
  | unloaded => true
  | _ => false

def knows (s : Status) (name : String) : Bool :=
  isBase name || s.catalog.names.contains name

/-- All known icons, the base icons first. -/
def names (s : Status) : List String :=
  base.names ++ s.catalog.names.filter (!isBase ·)

/-- The icon to draw for a tag. -/
def resolve (s : Status) (tag : Option String) : String :=
  match tag with
  | some name => if !name.isEmpty && s.knows name then name else generic
  | none => generic

end Status

/-- What can be asked of a registry. -/
inductive Call where
  | resolve (tag : Option String) (loadMissing : Bool)
  | isKnown (name : String)
  | names
  | preload

inductive Answer where
  | icon (name : String)
  | known (b : Bool)
  | names (ns : List String)
  | done

namespace Call

/-- The answer that a status gives. -/
def answer (s : Status) : Call → Answer
  | resolve tag _ => .icon (s.resolve tag)
  | isKnown name => .known (s.knows name)
  | names => .names s.names
  | preload => .done

/-- Whether the catalog is loaded before the call is answered. -/
def needsLoad (s : Status) : Call → Bool
  | resolve (some name) loadMissing =>
    s.isUnloaded && loadMissing && !name.isEmpty && !s.knows name
  | preload => s.isUnloaded
  | _ => false

end Call

/-- The calls that a loader makes, and how it ends. -/
structure Loader where
  during : List Call := []
  outcome : Except String Catalog

/-- The built-in catalog. -/
def Loader.builtin : Loader :=
  { outcome := .ok cloud }

/-- What is left of a load: the answers given during it, and how it ended. -/
structure Load where
  during : List (Answer × Status)
  outcome : Except String Catalog

structure Registry where
  loader : Loader := .builtin
  status : Status := .unloaded
  /-- The loads so far. -/
  loads : List Load := []

namespace Registry

/-- Answers a call, where `load` says what a load does. -/
def performWith (load : Registry → Registry) (r : Registry) (c : Call) : Answer × Registry :=
  let r := if c.needsLoad r.status then load r else r
  (c.answer r.status, r)

/-- Answers calls one after the other, each with the status after it. -/
def runWith (load : Registry → Registry) :
    Registry → List Call → List (Answer × Status) × Registry
  | r, [] => ([], r)
  | r, c :: cs =>
    let (a, r) := performWith load r c
    let (as, last) := runWith load r cs
    ((a, r.status) :: as, last)

/-- Runs the loader. Calls made during a load start no other, whatever they are. -/
def load (r : Registry) : Registry :=
  let (during, inner) := runWith id { r with status := .loading } r.loader.during
  let catalog := match r.loader.outcome with
    | .ok c => c
    | .error _ => ∅
  { inner with
    status := .loaded catalog
    loads := inner.loads ++ [⟨during, r.loader.outcome⟩] }

def perform (r : Registry) (c : Call) : Answer × Registry :=
  performWith load r c

def run (r : Registry) (cs : List Call) : List (Answer × Status) × Registry :=
  runWith load r cs

/-- Loads the catalog unless that has been done. -/
def preload (r : Registry) : Registry :=
  (r.perform .preload).2

/-- The icon to draw for a tag; an unknown tag loads the catalog first. -/
def resolve (r : Registry) (tag : String) : String × Registry :=
  let r := (r.perform (.resolve (some tag) true)).2
  (r.status.resolve (some tag), r)

end Registry

end ArchDiagram.Icon
