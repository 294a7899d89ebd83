import Moniker.Wire

/-!
# Categories

Every segment of a key opens with the category of the symbol that it describes. The category
fixes which frames follow, and it names the rule that reads them back.
-/

namespace Moniker

/-- What one segment of a key describes. A type parameter has two forms: by its owner, and
by its place in the signature of an enclosing method. -/
inductive Category where
  | nameSpace
  | namedType
  | arrayType
  | pointerType
  | tupleType
  | anonymousType
  | typeParameter
  | typeParameterOrdinal
  | field
  | property
  | method
  | parameter
  | localVariable
  deriving Repr, DecidableEq

namespace Category

/-- Every category, in the order of the byte form. -/
def all : List Category :=
  [.nameSpace, .namedType, .arrayType, .pointerType, .tupleType, .anonymousType, .typeParameter,
    .typeParameterOrdinal, .field, .property, .method, .parameter, .localVariable]

/-- The letter that stands for the category in the text form of a key. -/
def letter : Category → Char
  | .nameSpace => 'N'
  | .namedType => 'D'
  | .arrayType => 'Z'
  | .pointerType => 'P'
  | .tupleType => 'U'
  | .anonymousType => 'W'
  | .typeParameter => 'Y'
  | .typeParameterOrdinal => '@'
  | .field => 'F'
  | .property => 'Q'
  | .method => 'M'
  | .parameter => 'R'
  | .localVariable => 'B'

/-- The category's name. -/
def title : Category → String
  | .nameSpace => "Namespace"
  | .namedType => "NamedType"
  | .arrayType => "ArrayType"
  | .pointerType => "PointerType"
  | .tupleType => "TupleType"
  | .anonymousType => "AnonymousType"
  | .typeParameter => "TypeParameter"
  | .typeParameterOrdinal => "TypeParameterOrdinal"
  | .field => "Field"
  | .property => "Property"
  | .method => "Method"
  | .parameter => "Parameter"
  | .localVariable => "Local"

/-- The name under which failures and log events mention the category. -/
def codec (c : Category) : String := c.title ++ "SymbolKey"

def format : Wire.Format Category := .choice all

end Category
end Moniker
