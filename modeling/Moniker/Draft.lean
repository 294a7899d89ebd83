import Moniker.Compilation

/-!
# Drafts

A draft is a compilation under construction. It starts out with the global namespace and the
built-in types, takes declarations one by one, and keeps members in the order in which they
were declared. Finishing it yields a compilation.
-/

namespace Moniker

/-- A program under construction: the symbols declared and the files registered so far. -/
structure Draft where
  table : SymbolTable
  files : List String

namespace Draft

/-- The global namespace of every draft. -/
def global : SymbolId := ⟨0⟩

def object : SymbolId := ⟨1⟩

def int : SymbolId := ⟨2⟩

def string : SymbolId := ⟨3⟩

def bool : SymbolId := ⟨4⟩

/-- A type that every program has. -/
def builtin (name : String) : Symbol :=
  { kind := .namedType, name := name, container := some global }

/-- A draft without declarations of its own. -/
def empty : Draft where
  table := { symbols := #[
    { kind := .nameSpace, name := "", members := [object, int, string, bool] },
    builtin "object", builtin "int", builtin "string", builtin "bool"] }
  files := []

/-- Registers a source file. -/
def file (path : String) (d : Draft) : Draft := { d with files := path :: d.files }

/-- Caps how many properties an anonymous type may have. -/
def limitAnonymousArity (limit : Nat) (d : Draft) : Draft :=
  { d with table := { d.table with maxAnonymousArity := some limit } }

/-- A declaration yields the new symbol and the draft that has it. A container that the
draft never issued is a fault. -/
abbrev Declared := Except Fault (SymbolId × Draft)

/-- Declares one symbol. -/
def declare (role : Attachment) (owner : SymbolId) (symbol : Symbol) (d : Draft) : Declared := do
  let (id, table) ← d.table.declare role owner symbol
  return (id, { d with table := table })

def typeParameters (d : Draft) (s : SymbolId) : Except Fault (List SymbolId) :=
  (·.typeParameters) <$> d.table.get s

/-- Declares type parameters one after the other. -/
def declareTypeParameters (owner : SymbolId) (names : List String) (d : Draft) :
    Except Fault Draft :=
  names.foldlM (fun d name =>
    Prod.snd <$> d.declare .typeParameter owner { kind := .typeParameter, name := name }) d

def nameSpace (parent : SymbolId) (name : String) : Draft → Declared :=
  declare .member parent { kind := .nameSpace, name := name }

/-- A named type, generic if it has type parameters. -/
def namedType (container : SymbolId) (name : String) (typeParameters : List String) (d : Draft) :
    Declared := do
  let (id, d) ← d.declare .member container { kind := .namedType, name := name }
  return (id, ← d.declareTypeParameters id typeParameters)

def method (owner : SymbolId) (name : String) (typeParameters : List String) (d : Draft) :
    Declared := do
  let (id, d) ← d.declare .member owner { kind := .method, name := name }
  return (id, ← d.declareTypeParameters id typeParameters)

def field (owner : SymbolId) (name : String) (type : SymbolId) (location : Location) :
    Draft → Declared :=
  declare .member owner
    { kind := .field, name := name, type := some type, locations := location.sites }

def property (owner : SymbolId) (name : String) (type : SymbolId) (readOnly : Bool)
    (location : Location) : Draft → Declared :=
  declare .member owner
    { kind := .property, name := name, type := some type, readOnly := readOnly,
      locations := location.sites }

def parameter (owner : SymbolId) (name : String) (type : SymbolId) : Draft → Declared :=
  declare .parameter owner { kind := .parameter, name := name, type := some type }

/-- A read-only property with parameters. -/
def indexer (owner : SymbolId) (name : String) (type : SymbolId)
    (parameters : List (String × SymbolId)) (d : Draft) : Declared := do
  let (id, d) ← d.property owner name type true .nowhere
  let d ← parameters.foldlM (fun d p => Prod.snd <$> d.parameter id p.1 p.2) d
  return (id, d)

def localVariable (owner : SymbolId) (name : String) (type : SymbolId) : Draft → Declared :=
  declare .member owner { kind := .localVariable, name := name, type := some type }

def array (element : SymbolId) (rank : UInt64) (d : Draft) : SymbolId × Draft :=
  let (id, table) := d.table.array element rank
  (id, { d with table := table })

def pointer (pointee : SymbolId) (d : Draft) : SymbolId × Draft :=
  let (id, table) := d.table.pointer pointee
  (id, { d with table := table })

/-- Keeps what a request for a structural type left behind. -/
def settle (d : Draft) (request : Except Rejection (SymbolId × SymbolTable)) :
    Except Rejection SymbolId × Draft :=
  match request with
  | .ok (id, table) => (.ok id, { d with table := table })
  | .error rejection => (.error rejection, d)

def construct (definition : SymbolId) (arguments : List SymbolId) (d : Draft) :
    Except Fault (Except Rejection SymbolId × Draft) :=
  d.settle <$> d.table.construct definition arguments

def tuple (types : List SymbolId) (names : List (Option String)) (locations : List Location)
    (d : Draft) : Except Rejection SymbolId × Draft :=
  d.settle (d.table.tuple types names locations)

def anonymous (types : List SymbolId) (names : List String) (readOnly : List Bool)
    (locations : List Location) (d : Draft) : Except Rejection SymbolId × Draft :=
  d.settle (d.table.anonymous types names readOnly locations)

/-- The compilation that a draft describes. -/
def finish (d : Draft) : Compilation where
  table := d.table
  files := d.files
  global := global
  universal := object

end Draft
end Moniker
