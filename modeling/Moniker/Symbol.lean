import Moniker.Location

/-!
# Symbols

A symbol is a named or structural thing that a compilation knows: a namespace, a type, a
member of a type, a part of a method. Symbols refer to each other by the number under which
their compilation issued them.
-/

namespace Moniker

/-- The number under which a compilation issued a symbol. It means nothing to any other
compilation. -/
structure SymbolId where
  index : Nat
  deriving Repr, DecidableEq

def SymbolId.render (id : SymbolId) : String := s!"SymbolId({id.index})"

def SymbolId.format : Wire.Format SymbolId where
  write id := Wire.Format.uint32.write (UInt32.ofNat id.index)
  read := return ⟨(← Wire.Format.uint32.read).toNat⟩

/-- How a compilation classifies a symbol. -/
inductive SymbolKind where
  | nameSpace
  | namedType
  | arrayType
  | pointerType
  | tupleType
  | anonymousType
  | typeParameter
  | field
  | property
  | method
  | parameter
  | localVariable
  deriving Repr, DecidableEq

namespace SymbolKind

/-- Every kind, in the order of the byte form. -/
def all : List SymbolKind :=
  [.nameSpace, .namedType, .arrayType, .pointerType, .tupleType, .anonymousType, .typeParameter,
    .field, .property, .method, .parameter, .localVariable]

/-- The kind's name. -/
def title : SymbolKind → String
  | .nameSpace => "Namespace"
  | .namedType => "NamedType"
  | .arrayType => "ArrayType"
  | .pointerType => "PointerType"
  | .tupleType => "TupleType"
  | .anonymousType => "AnonymousType"
  | .typeParameter => "TypeParameter"
  | .field => "Field"
  | .property => "Property"
  | .method => "Method"
  | .parameter => "Parameter"
  | .localVariable => "Local"

/-- The kind in prose. -/
def label : SymbolKind → String
  | .nameSpace => "namespace"
  | .namedType => "named type"
  | .arrayType => "array type"
  | .pointerType => "pointer type"
  | .tupleType => "tuple type"
  | .anonymousType => "anonymous type"
  | .typeParameter => "type parameter"
  | .field => "field"
  | .property => "property"
  | .method => "method"
  | .parameter => "parameter"
  | .localVariable => "local"

def format : Wire.Format SymbolKind := .choice all

end SymbolKind

/-- What a compilation records about a symbol. -/
structure Symbol where
  kind : SymbolKind
  /-- Empty for symbols without a name. -/
  name : String
  container : Option SymbolId := none
  /-- In declaration order. -/
  members : List SymbolId := []
  /-- The type of a field, property, parameter or local; the element of an array or pointer. -/
  type : Option SymbolId := none
  typeParameters : List SymbolId := []
  typeArguments : List SymbolId := []
  /-- The generic definition that a constructed type was made from. -/
  definition : Option SymbolId := none
  parameters : List SymbolId := []
  readOnly : Bool := false
  locations : List Location := []
  rank : UInt64 := 0
  deriving Repr, DecidableEq

/-- The declaration sites of a symbol declared at one place. -/
def Location.sites : Location → List Location
  | .nowhere => []
  | site => [site]

end Moniker
