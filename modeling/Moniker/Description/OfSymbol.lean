import Moniker.Compilation
import Moniker.Description

/-!
# Descriptions from symbols

A symbol is described by its place: its container, its name, and what tells it from its
neighbours. Structural types are described by their shape. While the signature of a method
is being described, the method's own type parameters are described by their place in that
signature, because describing them by their owner would begin the same signature again.
-/

namespace Moniker.Description

/-- The category under which a symbol is described inside the signatures of `methods`. -/
def categoryOf (c : Compilation) (methods : List SymbolId) (s : SymbolId) :
    Except Fault Category := do
  match ← c.kind s with
  | .nameSpace => return .nameSpace
  | .namedType => return .namedType
  | .arrayType => return .arrayType
  | .pointerType => return .pointerType
  | .tupleType => return .tupleType
  | .anonymousType => return .anonymousType
  | .typeParameter =>
    match ← c.container s with
    | some owner =>
      return if owner ∈ methods then .typeParameterOrdinal else .typeParameter
    | none => return .typeParameter
  | .field => return .field
  | .property => return .property
  | .method => return .method
  | .parameter => return .parameter
  | .localVariable => return .localVariable

/-- The innermost place of a method among those whose signatures are being described,
outermost first. -/
def methodIndex? (methods : List SymbolId) (method : SymbolId) : Option Nat :=
  (methods.reverse.idxOf? method).map (methods.length - 1 - ·)

/-- Describes a symbol under a category, when `nested` describes other symbols inside the
signatures of the given methods. The category need not be the symbol's own. -/
def ofSymbolAs (c : Compilation) (nested : List SymbolId → SymbolId → Except Fault Description)
    (methods : List SymbolId) (s : SymbolId) : Category → Except Fault Description
  | .nameSpace => do
    match ← c.container s with
    | none => return global
    | some container => return nameSpace (← nested methods container) (.ok (← c.name s))
  | .namedType => do
    let definition ← c.definition s
    let container ← nested methods (← c.containerOrGlobal definition)
    let name ← c.name definition
    let arity := (← c.typeParameters definition).length
    if definition = s then
      return namedType container (.ok name) (.ok arity) (.ok .absent) []
    let arguments ← c.typeArguments s
    return namedType container (.ok name) (.ok arity) (.ok (.ofLength arguments.length))
      (← arguments.mapM (nested methods))
  | .arrayType => do
    let element ← nested methods (← c.typeOrUniversal s)
    return arrayType element (.ok (← c.rank s).toNat)
  | .pointerType => do return pointerType (← nested methods (← c.typeOrUniversal s))
  | .tupleType => do
    let elements ← c.membersOfKind .field s
    let types ← elements.mapM c.typeOrUniversal
    let names ← elements.mapM c.name
    let locations ← elements.mapM c.firstLocation
    return tupleType (.ok (.ofLength types.length)) (← types.mapM (nested methods))
      (.ofItems? (some (names.map fun name => if name.isEmpty then none else some name)))
      (.ofItems? (some locations))
  | .anonymousType => do
    let properties ← c.membersOfKind .property s
    let types ← properties.mapM c.typeOrUniversal
    let names ← properties.mapM c.name
    let readOnly ← properties.mapM c.isReadOnly
    let locations ← properties.mapM c.firstLocation
    return anonymousType (.ok (.ofLength types.length)) (← types.mapM (nested methods))
      (.ofItems? (some (names.map some))) (.ofItems? (some readOnly)) (.ofItems? (some locations))
  | .typeParameter => do
    return typeParameter (← nested methods (← c.containerOrGlobal s)) (.ok (← c.name s))
  | .typeParameterOrdinal => do
    match ← c.container s with
    | none => return typeParameterOrdinal (.ok 0) (.ok 0)
    | some owner =>
      let depth := (methodIndex? methods owner).getD 0
      let ordinal := ((← c.typeParameters owner).idxOf? s).getD 0
      return typeParameterOrdinal (.ok depth) (.ok ordinal)
  | .field => do
    return field (← nested methods (← c.containerOrGlobal s)) (.ok (← c.name s))
  | .property => do
    let container ← nested methods (← c.containerOrGlobal s)
    let name ← c.name s
    let types ← c.parameterTypes s
    return property container (.ok name) (.ok (.ofLength types.length))
      (← types.mapM (nested methods))
  | .method => do
    let container ← nested methods (← c.containerOrGlobal s)
    let name ← c.name s
    let arity := (← c.typeParameters s).length
    let types ← c.parameterTypes s
    return method container (.ok name) (.ok arity) (.ok (.ofLength types.length))
      (← types.mapM (nested (methods ++ [s])))
  | .parameter => do
    return parameter (← nested methods (← c.containerOrGlobal s)) (.ok (← c.name s))
  | .localVariable => do
    let name ← c.name s
    let owner ← c.containerOrGlobal s
    let ordinal := ((← c.localsNamed (· == name) owner).idxOf? s).getD 0
    return localVariable (← nested methods owner) (.ok name) (.ok ordinal)

/-- Describes a symbol, if the description is at most `fuel` segments deep. -/
def ofSymbolWithin (c : Compilation) :
    (fuel : Nat) → List SymbolId → SymbolId → Except Fault Description
  | 0, _, _ => .error .endless
  | fuel + 1, methods, s => do
    ofSymbolAs c (ofSymbolWithin c fuel) methods s (← categoryOf c methods s)

/-- How deep a description can be. What is described inside a segment depends on its symbol
and on which methods are being described. Along a path inwards methods are only added, so a
path longer than this meets the same symbol among the same methods twice, and never ends. -/
def depthBound (c : Compilation) : Nat := c.size * (c.size + 1) + 1

/-- Describes a symbol inside the signatures of the given methods. -/
def ofSymbol (c : Compilation) (methods : List SymbolId) (s : SymbolId) :
    Except Fault Description :=
  ofSymbolWithin c (depthBound c) methods s

end Moniker.Description
