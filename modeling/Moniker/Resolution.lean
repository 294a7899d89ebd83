import Moniker.SymbolTable

/-!
# Resolutions

Resolving a key against a compilation ends in exactly one symbol, in several equally good
candidates, or in a failure. A failure is a chain: the innermost link says what could not be
found, and every link around it says which part of an enclosing segment was being resolved.
-/

namespace Moniker

/-- A chain of reasons, outermost first. -/
inductive Failure where
  /-- No symbol has this name. -/
  | notFound (codec name : String)
  /-- The compilation did not build the shape. -/
  | rejected (codec detail : String)
  /-- The compilation has no such source file. -/
  | notInCompilation (path : String)
  /-- A reference to an enclosing method, or to one of its type parameters, that is not
  there. -/
  | unbound (codec detail : String)
  /-- A part of a segment failed. -/
  | field (codec part : String) (cause : Failure)
  /-- An element of an array failed. -/
  | element (index : Nat) (cause : Failure)
  deriving Repr, DecidableEq

namespace Failure

def cause? : Failure → Option Failure
  | .field _ _ cause | .element _ cause => some cause
  | _ => none

/-- The reason followed by its causes. -/
def chain : Failure → List Failure
  | .field codec name cause => .field codec name cause :: chain cause
  | .element index cause => .element index cause :: chain cause
  | leaf => [leaf]

/-- The innermost reason. -/
def root : Failure → Failure
  | .field _ _ cause | .element _ cause => root cause
  | leaf => leaf

/-- Whether some link arose while the named part was being resolved. -/
def involves (name : String) : Failure → Bool
  | .field _ part cause => part == name || involves name cause
  | .element _ cause => involves name cause
  | _ => false

def render : Failure → String
  | .notFound codec name => s!"({codec} '{name}' not found)"
  | .rejected codec detail => s!"({codec} shape rejected: {detail})"
  | .notInCompilation path => s!"(location '{path}' not in compilation)"
  | .unbound codec detail => s!"({codec} {detail})"
  | .field codec part cause => s!"({codec} {part} failed -> {cause.render})"
  | .element index cause => s!"(element {index} failed -> {cause.render})"

end Failure

/-- A successful outcome. Candidates are in lookup order. -/
inductive Resolution (α : Type) where
  | symbol (s : α)
  | ambiguous (candidates : List α)
  deriving Repr, DecidableEq

/-- The outcome of resolving a key whose frames are sound. -/
abbrev Resolved := Except Failure (Resolution SymbolId)

namespace Resolution

/-- Collapses what a lookup found: repetitions are dropped, one survivor is the symbol,
several are ambiguous, none is a failure. -/
def ofCandidates [BEq α] (found : List α) (missing : Failure) : Except Failure (Resolution α) :=
  match found.eraseDups with
  | [] => .error missing
  | [s] => .ok (.symbol s)
  | several => .ok (.ambiguous several)

def candidates : Resolution α → List α
  | .symbol s => [s]
  | .ambiguous several => several

/-- The symbol, if there is exactly one. -/
def symbol? : Resolution α → Option α
  | .symbol s => some s
  | .ambiguous _ => none

/-- The first candidate. -/
def any? (r : Resolution α) : Option α := r.candidates.head?

def isAmbiguous : Resolution α → Bool
  | .symbol _ => false
  | .ambiguous _ => true

def map (f : α → β) : Resolution α → Resolution β
  | .symbol s => .symbol (f s)
  | .ambiguous several => .ambiguous (several.map f)

/-- Sends every candidate through a step, in order. -/
def mapM [Monad m] (f : α → m β) : Resolution α → m (Resolution β)
  | .symbol s => return .symbol (← f s)
  | .ambiguous several => return .ambiguous (← several.mapM f)

end Resolution
end Moniker
