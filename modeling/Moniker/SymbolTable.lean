import Moniker.Symbol

/-!
# Symbol tables

A symbol table issues symbols in order and never takes one back. Declared symbols are
attached to the symbol that contains them. Structural types are interned instead: the shape
of a request decides which symbol answers it, so asking for the same `Shape` twice yields
the same symbol. A shape that does not hang together is refused with a `Rejection`.
-/

namespace Moniker

/-- How a declared symbol hangs off its container. -/
inductive Attachment where
  | member
  | parameter
  | typeParameter
  deriving Repr, DecidableEq

/-- Everything that tells one structural type from another. Locations are not part of it. -/
inductive Shape where
  | array (element : SymbolId) (rank : UInt64)
  | pointer (pointee : SymbolId)
  | constructed (definition : SymbolId) (arguments : List SymbolId)
  | tuple (types : List SymbolId) (names : List (Option String))
  | anonymous (types : List SymbolId) (names : List String) (readOnly : List Bool)
  deriving Repr, DecidableEq

/-- Why a requested shape was not built. -/
inductive Rejection where
  | notGeneric (name : String)
  | argumentCount (name : String) (takes got : Nat)
  | elementLengths
  | tooFewElements (got : Nat)
  | duplicateElement (name : String)
  | propertyLengths
  | tooManyProperties (limit got : Nat)
  | unnamedProperty
  | duplicateProperty (name : String)
  /-- A reason given by a factory other than those of a symbol table. -/
  | other (reason : String)
  deriving Repr, DecidableEq

namespace Rejection

/-- The reason, in words. -/
def reason : Rejection → String
  | .notGeneric name => s!"'{name}' is not a generic type definition"
  | .argumentCount name takes got => s!"'{name}' takes {takes} type argument(s), got {got}"
  | .elementLengths => "tuple element arrays differ in length"
  | .tooFewElements got => s!"tuples need at least two elements, got {got}"
  | .duplicateElement name => s!"duplicate element name '{name}'"
  | .propertyLengths => "property arrays differ in length"
  | .tooManyProperties limit got => s!"anonymous types are limited to {limit} properties, got {got}"
  | .unnamedProperty => "anonymous type properties must be named"
  | .duplicateProperty name => s!"duplicate property name '{name}'"
  | .other reason => reason

def render (r : Rejection) : String := "shape rejected: " ++ r.reason

end Rejection

/-- The first name that occurs before its own place in the list. -/
def firstDuplicate? (names : List String) : Option String :=
  go [] names
where
  go (seen : List String) : List String → Option String
    | [] => none
    | name :: rest => if name ∈ seen then some name else go (name :: seen) rest

/-- Issued symbols, and the shapes that have been asked for. -/
structure SymbolTable where
  symbols : Array Symbol := #[]
  interned : List (Shape × SymbolId) := []
  /-- How many properties an anonymous type may have. -/
  maxAnonymousArity : Option Nat := none

namespace SymbolTable

def size (t : SymbolTable) : Nat := t.symbols.size

/-- The number that the next symbol will get. -/
def next (t : SymbolTable) : SymbolId := ⟨t.size⟩

def get (t : SymbolTable) (id : SymbolId) : Except Fault Symbol :=
  match t.symbols[id.index]? with
  | some symbol => .ok symbol
  | none => .error (.outOfRange t.size id.index)

/-- Issues a symbol that nothing contains. -/
def add (symbol : Symbol) (t : SymbolTable) : SymbolId × SymbolTable :=
  (t.next, { t with symbols := t.symbols.push symbol })

/-- The owner with one more symbol hanging off it. -/
def attach (role : Attachment) (id : SymbolId) (owner : Symbol) : Symbol :=
  match role with
  | .member => { owner with members := owner.members ++ [id] }
  | .parameter => { owner with parameters := owner.parameters ++ [id] }
  | .typeParameter => { owner with typeParameters := owner.typeParameters ++ [id] }

/-- Issues a symbol inside an owner that has been issued before. -/
def declare (role : Attachment) (owner : SymbolId) (symbol : Symbol) (t : SymbolTable) :
    Except Fault (SymbolId × SymbolTable) := do
  let _ ← t.get owner
  let attached := { t with symbols := t.symbols.modify owner.index (attach role t.next) }
  return attached.add { symbol with container := some owner }

/-- Issues a type followed by its members. -/
def addWithMembers (type : Symbol) (members : List Symbol) (t : SymbolTable) :
    SymbolId × SymbolTable :=
  let ids := (List.range members.length).map fun i => SymbolId.mk (t.size + 1 + i)
  let within := members.map fun member => { member with container := some t.next }
  (t.next, { t with symbols := (t.symbols.push { type with members := ids }) ++ within.toArray })

/-- The symbol of a shape: the one that an earlier request got, or else a new one. -/
def intern (shape : Shape) (build : SymbolTable → SymbolId × SymbolTable) (t : SymbolTable) :
    SymbolId × SymbolTable :=
  match t.interned.lookup shape with
  | some id => (id, t)
  | none =>
    let (id, built) := build t
    (id, { built with interned := (shape, id) :: built.interned })

/-- The array type of an element type and a rank. -/
def array (element : SymbolId) (rank : UInt64) (t : SymbolTable) : SymbolId × SymbolTable :=
  t.intern (.array element rank)
    (add { kind := .arrayType, name := "", type := some element, rank := rank })

/-- The type of pointers to a type. -/
def pointer (pointee : SymbolId) (t : SymbolTable) : SymbolId × SymbolTable :=
  t.intern (.pointer pointee) (add { kind := .pointerType, name := "", type := some pointee })

/-- Whether a definition takes these type arguments. -/
def checkArguments (definition : Symbol) (arguments : List SymbolId) : Except Rejection Unit :=
  if definition.kind ≠ .namedType ∨ definition.definition.isSome then
    .error (.notGeneric definition.name)
  else if definition.typeParameters = [] ∨ definition.typeParameters.length ≠ arguments.length then
    .error (.argumentCount definition.name definition.typeParameters.length arguments.length)
  else .ok ()

/-- The type made from a generic definition and its type arguments. -/
def construct (definition : SymbolId) (arguments : List SymbolId) (t : SymbolTable) :
    Except Fault (Except Rejection (SymbolId × SymbolTable)) := do
  let generic ← t.get definition
  return (checkArguments generic arguments).map fun _ =>
    t.intern (.constructed definition arguments)
      (add { kind := .namedType, name := generic.name, container := generic.container,
             definition := some definition, typeArguments := arguments })

/-- Whether the parts of a tuple fit together. -/
def checkTuple (types : List SymbolId) (names : List (Option String)) (locations : List Location) :
    Except Rejection Unit :=
  if types.length ≠ names.length ∨ types.length ≠ locations.length then .error .elementLengths
  else if types.length < 2 then .error (.tooFewElements types.length)
  else
    match firstDuplicate? (names.filterMap id) with
    | some name => .error (.duplicateElement name)
    | none => .ok ()

/-- The elements of a tuple, as fields. -/
def tupleFields : List SymbolId → List (Option String) → List Location → List Symbol
  | type :: types, name :: names, location :: locations =>
    { kind := .field, name := name.getD "", type := some type, locations := location.sites }
      :: tupleFields types names locations
  | _, _, _ => []

/-- The tuple type with the given elements. -/
def tuple (types : List SymbolId) (names : List (Option String)) (locations : List Location)
    (t : SymbolTable) : Except Rejection (SymbolId × SymbolTable) := do
  checkTuple types names locations
  return t.intern (.tuple types names)
    (addWithMembers { kind := .tupleType, name := "" } (tupleFields types names locations))

/-- Whether the parts of an anonymous type fit together. -/
def checkAnonymous (limit : Option Nat) (types : List SymbolId) (names : List String)
    (readOnly : List Bool) (locations : List Location) : Except Rejection Unit :=
  if names.length ≠ types.length ∨ readOnly.length ≠ types.length ∨
      locations.length ≠ types.length then
    .error .propertyLengths
  else do
    if let some limit := limit then
      if types.length > limit then
        throw (.tooManyProperties limit types.length)
    if names.any (·.isEmpty) then
      throw .unnamedProperty
    match firstDuplicate? names with
    | some name => throw (.duplicateProperty name)
    | none => return ()

/-- The properties of an anonymous type. -/
def anonymousProperties :
    List SymbolId → List String → List Bool → List Location → List Symbol
  | type :: types, name :: names, fixed :: readOnly, location :: locations =>
    { kind := .property, name := name, type := some type, readOnly := fixed,
      locations := location.sites } :: anonymousProperties types names readOnly locations
  | _, _, _, _ => []

/-- The anonymous type with the given properties. -/
def anonymous (types : List SymbolId) (names : List String) (readOnly : List Bool)
    (locations : List Location) (t : SymbolTable) : Except Rejection (SymbolId × SymbolTable) := do
  checkAnonymous t.maxAnonymousArity types names readOnly locations
  return t.intern (.anonymous types names readOnly)
    (addWithMembers { kind := .anonymousType, name := "" }
      (anonymousProperties types names readOnly locations))

end SymbolTable
end Moniker
