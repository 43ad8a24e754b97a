import Minilang.Ast

/-!
# Scopes

A chain of scopes is a stack of frames, the innermost one on top. Every frame binds a name at most once,
and a name means its binding in the innermost frame that has one.
-/

namespace Minilang

/-- What a frame belongs to. -/
inductive ScopeKind where
  /-- The whole program. -/
  | global
  /-- The parameter list of a function. -/
  | parameter
  /-- Statements in braces. -/
  | block
deriving DecidableEq, Repr

/-- One frame. -/
structure Scope where
  /-- What the frame belongs to. -/
  kind : ScopeKind
  /-- The names bound in the frame, the latest one first. -/
  bindings : List (String × DeclId)
deriving DecidableEq, Repr

namespace Scope

/-- A frame without any binding. -/
def ofKind (kind : ScopeKind) : Scope := ⟨kind, []⟩

/-- The declaration that a name is bound to in this frame. -/
def get? (scope : Scope) (name : String) : Option DeclId := scope.bindings.lookup name

/-- Bind a name. -/
def bind (scope : Scope) (name : String) (declaration : DeclId) : Scope :=
  { scope with bindings := (name, declaration) :: scope.bindings }

@[simp]
theorem get?_ofKind (kind : ScopeKind) (name : String) : (ofKind kind).get? name = none := rfl

theorem get?_bind (scope : Scope) (name other : String) (declaration : DeclId) :
    (scope.bind name declaration).get? other =
      if other = name then some declaration else scope.get? other := by
  by_cases same : other = name
  · simp [get?, bind, same]
  · simp [get?, bind, List.lookup_cons, same, beq_eq_false_iff_ne.2 same]

end Scope

/-- A stack of frames, the innermost one first. -/
structure ScopeChain where
  /-- The frames. -/
  frames : List Scope
deriving DecidableEq, Repr

namespace ScopeChain

/-- The chain without any frame. -/
def empty : ScopeChain := ⟨[]⟩

/-- Open a new innermost frame. -/
def push (chain : ScopeChain) (kind : ScopeKind) : ScopeChain :=
  ⟨Scope.ofKind kind :: chain.frames⟩

/-- Close the innermost frame and give it out. -/
def pop? (chain : ScopeChain) : Option (Scope × ScopeChain) :=
  match chain.frames with
  | [] => none
  | frame :: outer => some (frame, ⟨outer⟩)

/-- The number of frames. -/
def depth (chain : ScopeChain) : Nat := chain.frames.length

/-- The innermost frame. -/
def current? (chain : ScopeChain) : Option Scope := chain.frames.head?

/-- What the innermost frame belongs to. -/
def currentKind? (chain : ScopeChain) : Option ScopeKind := chain.current?.map Scope.kind

/-- What the frame around the innermost one belongs to. -/
def parentKind? (chain : ScopeChain) : Option ScopeKind := chain.frames.tail.head?.map Scope.kind

/-- Bind a name in the innermost frame. A name that is bound there already keeps its declaration, which
is given out; without any frame the new declaration is given back. -/
def declare (chain : ScopeChain) (name : String) (declaration : DeclId) :
    Except DeclId ScopeChain :=
  match chain.frames with
  | [] => .error declaration
  | frame :: outer =>
    match frame.get? name with
    | some existing => .error existing
    | none => .ok ⟨frame.bind name declaration :: outer⟩

/-- What a name means: its binding in the innermost frame that binds it. -/
def lookup (chain : ScopeChain) (name : String) : Option DeclId :=
  chain.frames.findSome? fun frame => frame.get? name

@[simp]
theorem lookup_empty (name : String) : empty.lookup name = none := rfl

@[simp]
theorem lookup_push (chain : ScopeChain) (kind : ScopeKind) (name : String) :
    (chain.push kind).lookup name = chain.lookup name := by
  simp [lookup, push, List.findSome?_cons]

/-- What a name means after a declaration: the new name means its declaration, and all other names mean
what they meant before. -/
theorem lookup_of_declare {chain after : ScopeChain} {name : String} {declaration : DeclId}
    (declared : chain.declare name declaration = .ok after) (other : String) :
    after.lookup other = if other = name then some declaration else chain.lookup other := by
  obtain ⟨frames⟩ := chain
  cases frames with
  | nil => simp [declare] at declared
  | cons frame outer =>
    cases bound : frame.get? name with
    | some existing => simp [declare, bound] at declared
    | none =>
      simp only [declare, bound, Except.ok.injEq] at declared
      subst declared
      by_cases same : other = name <;>
        simp [lookup, List.findSome?_cons, Scope.get?_bind, same]

end ScopeChain

end Minilang
