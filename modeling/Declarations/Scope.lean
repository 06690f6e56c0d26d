/-
  Declarations/Scope.lean
  =======================
  **Scopes: which declared type a name means where.**

  A scope is a chain of frames.  Each frame binds names to handles, and a name
  means what the nearest frame of the chain binds it to.  Frames are shared:
  every fork of a scope has the whole chain of that scope behind its own new
  frame, so a name bound later in an outer frame is seen by the forks made
  before, and a name bound in a fork is seen neither outside nor by its siblings.

  Sharing needs one owner.  The `Workspace` keeps the bindings of all frames and
  the display name of every handle ever minted; a `Scope` holds only the numbers
  of its frames, and copying it copies no bindings.

  A lookup walks a chain and a binding changes one name of one frame, so after a
  binding the walk meets what it met before, except the new handle when it looks
  for that name in that frame (`Workspace.lookup_bind`).
-/
import Declarations.Reference
import Std.Data.ExtTreeMap

namespace Declarations

/-! ### The shared state -/

/-- What one frame binds. -/
abbrev Bindings := Std.ExtTreeMap String TypeHandle

/-- All minted handles and all frames. -/
structure Workspace where
  minted : Array String   -- the display names, in the order of minting
  frames : Array Bindings -- the bindings, by number of frame
deriving Inhabited

/-- A chain of frames within a module. -/
structure Scope where
  modulePath : String -- shown before the name of a class or interface declared here
  frame : Nat         -- the nearest frame
  outer : List Nat    -- the frames around it, from the nearest outwards
deriving DecidableEq, Repr, Inhabited

namespace Scope

/-- The frames of a scope, from the nearest outwards. -/
def chain (s : Scope) : List Nat := s.frame :: s.outer

/-- The scope around this one. -/
def parent? (s : Scope) : Option Scope :=
  match s.outer with
  | [] => none
  | frame :: outer => some { s with frame, outer }

/-- Whether two scopes have the same nearest frame. -/
def sameFrame (s t : Scope) : Bool := s.frame == t.frame

end Scope

namespace Workspace

/-- Nothing minted, no frame. -/
def empty : Workspace := ⟨#[], #[]⟩

instance : EmptyCollection Workspace := ⟨empty⟩

/-- Mint a handle.  Handles are numbered from 1 on in the order of minting. -/
def mint (w : Workspace) (display : String) : TypeHandle × Workspace :=
  (⟨w.minted.size + 1, display⟩, { w with minted := w.minted.push display })

/-- What a frame binds. -/
def bindings (w : Workspace) (frame : Nat) : Bindings := w.frames[frame]?.getD ∅

/-- A new scope without a parent: the root scope of a module. -/
def root (w : Workspace) (modulePath : String) : Scope × Workspace :=
  (⟨modulePath, w.frames.size, []⟩, { w with frames := w.frames.push ∅ })

/-- A new scope within another. -/
def fork (w : Workspace) (s : Scope) : Scope × Workspace :=
  (⟨s.modulePath, w.frames.size, s.chain⟩, { w with frames := w.frames.push ∅ })

/-- The scope for a record of a kind: a fork if the kind opens a scope, else the
    surrounding scope itself. -/
def enter (w : Workspace) (s : Scope) (kind : Kind) : Scope × Workspace :=
  if kind.opensScope then w.fork s else (s, w)

/-! ### Names -/

/-- What a name means in a scope: the nearest binding of the chain. -/
def lookup (w : Workspace) (s : Scope) (name : String) : Option TypeHandle :=
  s.chain.findSome? fun frame => (w.bindings frame)[name]?

/-- Whether the nearest frame itself binds a name. -/
def isBoundLocally (w : Workspace) (s : Scope) (name : String) : Bool :=
  (w.bindings s.frame).contains name

/-- How many names the nearest frame binds. -/
def localCount (w : Workspace) (s : Scope) : Nat := (w.bindings s.frame).size

/-- What the nearest frame binds a name to. -/
def localBinding? (w : Workspace) (s : Scope) (name : String) : Option TypeHandle :=
  (w.bindings s.frame)[name]?

/-- Bind a name in the nearest frame.  The answer is the binding that is replaced
    there; bindings in outer frames are shadowed. -/
def bind (w : Workspace) (s : Scope) (name : String) (handle : TypeHandle) :
    Option TypeHandle × Workspace :=
  ((w.bindings s.frame)[name]?,
    { w with frames := w.frames.modify s.frame (·.insert name handle) })

/-- Resolve a reference in a scope. -/
def resolve (w : Workspace) (s : Scope) (reference : TypeReference) : TypeReference :=
  reference.resolve (w.lookup s)

/-- Resolve the references of a list in a scope, if there is a list. -/
def resolveMany (w : Workspace) (s : Scope) (references : Option (List TypeReference)) :
    Option (List TypeReference) :=
  TypeReference.resolveMany (w.lookup s) references

/-! ### Declaring types -/

/-- Declare a class or interface: mint a handle shown as `path::name` and bind
    the name to it. -/
def declareNominal (w : Workspace) (s : Scope) (name : String) : TypeHandle × Workspace :=
  let (handle, w) := w.mint (s.modulePath ++ "::" ++ name)
  (handle, (w.bind s name handle).2)

/-- Declare a type parameter.  A name is bound to a new handle shown as that
    name, a handle is bound under its own display name. -/
def declareTypeParameter (w : Workspace) (s : Scope) : TypeIdentifier → TypeHandle × Workspace
  | .name name =>
    let (handle, w) := w.mint name
    (handle, (w.bind s name handle).2)
  | .handle handle => (handle, (w.bind s handle.display handle).2)

/-- Declare type parameters in order. -/
def declareTypeParameters (w : Workspace) (s : Scope) :
    List TypeIdentifier → List TypeHandle × Workspace
  | [] => ([], w)
  | parameter :: rest =>
    let (handle, w) := w.declareTypeParameter s parameter
    let (handles, w) := w.declareTypeParameters s rest
    (handle :: handles, w)

/-! ### What a new frame and a binding change -/

theorem bindings_root (w : Workspace) (modulePath : String) (frame : Nat) :
    (w.root modulePath).2.bindings frame = w.bindings frame := by
  unfold bindings root
  rcases Nat.lt_trichotomy frame w.frames.size with below | same | above
  · simp [Array.getElem?_push, Nat.ne_of_lt below]
  · simp [same]
  · simp [Array.getElem?_push, Nat.ne_of_gt above]

theorem bindings_fork (w : Workspace) (s : Scope) (frame : Nat) :
    (w.fork s).2.bindings frame = w.bindings frame :=
  bindings_root w s.modulePath frame

theorem bindings_bind {w : Workspace} {s : Scope} (h : s.frame < w.frames.size) (name : String)
    (handle : TypeHandle) (frame : Nat) :
    (w.bind s name handle).2.bindings frame =
      if s.frame = frame then (w.bindings frame).insert name handle else w.bindings frame := by
  unfold bindings bind
  by_cases same : s.frame = frame
  · subst same
    simp [h, Array.getElem_modify]
  · simp [Array.getElem?_modify, same]

theorem lookup_bind {w : Workspace} {s : Scope} (h : s.frame < w.frames.size) (name : String)
    (handle : TypeHandle) (x : Scope) (other : String) :
    (w.bind s name handle).2.lookup x other =
      x.chain.findSome? fun frame =>
        if s.frame = frame ∧ name = other then some handle else (w.bindings frame)[other]? := by
  unfold lookup
  congr 1
  funext frame
  rw [bindings_bind h]
  by_cases sameFrame : s.frame = frame
  · simp [sameFrame, Std.ExtTreeMap.getElem?_insert]
  · simp [sameFrame]

end Workspace

end Declarations
