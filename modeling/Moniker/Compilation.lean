import Moniker.Selection
import Moniker.SymbolTable

/-!
# Compilations

A compilation is a finished snapshot of a program: it answers queries about its symbols and
builds structural types on request. Asking about a symbol that it never issued is a fault.
Containment is uniform: a namespace or named type contains types, a type contains its
fields, properties and methods, a method contains its locals; parameters and type parameters
have lists of their own.
-/

namespace Moniker

/-- A finished program: its symbols, its files, and what it does not tell about them. -/
structure Compilation where
  table : SymbolTable
  /-- The source files; a location in any other file does not resolve. -/
  files : List String
  global : SymbolId
  /-- The root type, which stands in for types that cannot be rebuilt. -/
  universal : SymbolId
  /-- How often a tuple or anonymous type was asked for, whether or not it was built. -/
  structuralRequests : Nat := 0
  /-- Symbols whose container the compilation does not reveal. -/
  hiddenContainers : List SymbolId := []
  /-- Symbols whose type the compilation does not reveal. -/
  hiddenTypes : List SymbolId := []

namespace Compilation

/-! ## Queries -/

def size (c : Compilation) : Nat := c.table.size

def get (c : Compilation) (s : SymbolId) : Except Fault Symbol := c.table.get s

def kind (c : Compilation) (s : SymbolId) : Except Fault SymbolKind := (·.kind) <$> c.get s

def name (c : Compilation) (s : SymbolId) : Except Fault String := (·.name) <$> c.get s

def container (c : Compilation) (s : SymbolId) : Except Fault (Option SymbolId) :=
  if s ∈ c.hiddenContainers then .ok none else (·.container) <$> c.get s

def members (c : Compilation) (s : SymbolId) : Except Fault (List SymbolId) :=
  (·.members) <$> c.get s

def typeOf (c : Compilation) (s : SymbolId) : Except Fault (Option SymbolId) :=
  if s ∈ c.hiddenTypes then .ok none else (·.type) <$> c.get s

def typeParameters (c : Compilation) (s : SymbolId) : Except Fault (List SymbolId) :=
  (·.typeParameters) <$> c.get s

def typeArguments (c : Compilation) (s : SymbolId) : Except Fault (List SymbolId) :=
  (·.typeArguments) <$> c.get s

/-- The generic definition of a constructed type; any other symbol is its own definition. -/
def definition (c : Compilation) (s : SymbolId) : Except Fault SymbolId :=
  (·.definition.getD s) <$> c.get s

def isDefinition (c : Compilation) (s : SymbolId) : Except Fault Bool :=
  (· == s) <$> c.definition s

def parameters (c : Compilation) (s : SymbolId) : Except Fault (List SymbolId) :=
  (·.parameters) <$> c.get s

def isReadOnly (c : Compilation) (s : SymbolId) : Except Fault Bool := (·.readOnly) <$> c.get s

def locations (c : Compilation) (s : SymbolId) : Except Fault (List Location) :=
  (·.locations) <$> c.get s

/-- The first declaration site. -/
def firstLocation (c : Compilation) (s : SymbolId) : Except Fault Location :=
  (·.headD .nowhere) <$> c.locations s

def rank (c : Compilation) (s : SymbolId) : Except Fault UInt64 := (·.rank) <$> c.get s

def containsFile (c : Compilation) (path : String) : Bool := path ∈ c.files

/-- All that the compilation reveals about a symbol. -/
def reveal (c : Compilation) (s : SymbolId) : Except Fault Symbol := do
  let symbol ← c.get s
  return { symbol with container := ← c.container s, type := ← c.typeOf s }

/-! ## Derived queries -/

/-- The container, or the global namespace for symbols that have none. -/
def containerOrGlobal (c : Compilation) (s : SymbolId) : Except Fault SymbolId :=
  (·.getD c.global) <$> c.container s

/-- The type, or the root type for symbols that have none. -/
def typeOrUniversal (c : Compilation) (s : SymbolId) : Except Fault SymbolId :=
  (·.getD c.universal) <$> c.typeOf s

/-- The types of the parameters of a method or property, in order. -/
def parameterTypes (c : Compilation) (s : SymbolId) : Except Fault (List SymbolId) := do
  (← c.parameters s).mapM c.typeOrUniversal

/-- The members of one kind, in declaration order. -/
def membersOfKind (c : Compilation) (kind : SymbolKind) (s : SymbolId) :
    Except Fault (List SymbolId) := do
  select (fun m => return (← c.kind m) == kind) (← c.members s)

/-- The locals of a method whose names meet the test, in declaration order. -/
def localsNamed (c : Compilation) (accepts : String → Bool) (method : SymbolId) :
    Except Fault (List SymbolId) := do
  select (fun m => return accepts (← c.name m)) (← c.membersOfKind .localVariable method)

/-- The parts of a path, which are separated by two colons. -/
def splitPath (path : List Char) : List (List Char) :=
  go [] path
where
  go (part : List Char) : List Char → List (List Char)
    | [] => [part.reverse]
    | ':' :: ':' :: rest => part.reverse :: go [] rest
    | c :: rest => go (c :: part) rest

/-- Follows a path of member names from the global namespace. At every step the first member
of that name is taken, and it is never reconsidered. -/
def lookup (c : Compilation) (path : String) : Except Fault (Option SymbolId) :=
  follow c.global (splitPath path.toList)
where
  follow (scope : SymbolId) : List (List Char) → Except Fault (Option SymbolId)
    | [] => return some scope
    | part :: parts => do
      match ← selectFirst? (fun m => return (← c.name m).toList == part) (← c.members scope) with
      | none => return none
      | some m => follow m parts

/-! ## Structural types -/

/-- The array type of an element type and a rank. -/
def arrayType (c : Compilation) (element : SymbolId) (rank : UInt64) : SymbolId × Compilation :=
  let (id, table) := c.table.array element rank
  (id, { c with table := table })

/-- The type of pointers to a type. -/
def pointerType (c : Compilation) (pointee : SymbolId) : SymbolId × Compilation :=
  let (id, table) := c.table.pointer pointee
  (id, { c with table := table })

/-- Keeps what a request for a structural type left behind. A rejected one leaves nothing. -/
def settle (c : Compilation) (request : Except Rejection (SymbolId × SymbolTable)) :
    Except Rejection SymbolId × Compilation :=
  match request with
  | .ok (id, table) => (.ok id, { c with table := table })
  | .error rejection => (.error rejection, c)

/-- The type made from a generic definition and its type arguments. -/
def construct (c : Compilation) (definition : SymbolId) (arguments : List SymbolId) :
    Except Fault (Except Rejection SymbolId × Compilation) :=
  c.settle <$> c.table.construct definition arguments

/-- The compilation after one more request for a structural type. -/
def countRequest (c : Compilation) : Compilation :=
  { c with structuralRequests := c.structuralRequests + 1 }

def tupleType (c : Compilation) (types : List SymbolId) (names : List (Option String))
    (locations : List Location) : Except Rejection SymbolId × Compilation :=
  c.countRequest.settle (c.table.tuple types names locations)

def anonymousType (c : Compilation) (types : List SymbolId) (names : List String)
    (readOnly : List Bool) (locations : List Location) : Except Rejection SymbolId × Compilation :=
  c.countRequest.settle (c.table.anonymous types names readOnly locations)

/-! ## Reticence -/

/-- The compilation when it no longer reveals the container of a symbol. -/
def hideContainer (c : Compilation) (s : SymbolId) : Compilation :=
  { c with hiddenContainers := s :: c.hiddenContainers }

/-- The compilation when it no longer reveals the type of a symbol. -/
def hideType (c : Compilation) (s : SymbolId) : Compilation :=
  { c with hiddenTypes := s :: c.hiddenTypes }

end Compilation
end Moniker
