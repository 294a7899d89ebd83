import Moniker.Compilation
import Moniker.Options

/-!
# Looking symbols up

What a segment describes is found among the members, parameters or type parameters of the
candidates for its container. Lookups run over the candidates in order and keep everything
that fits, so that what they find is in lookup order too.
-/

namespace Moniker.Compilation

/-- The entries of the named lists that bear the name. -/
def named (c : Compilation) (o : ResolveOptions) (entries : SymbolId → Except Fault (List SymbolId))
    (owners : List SymbolId) (name : String) : Except Fault (List SymbolId) := do
  select (fun s => return o.namesMatch (← c.name s) name) (← expand entries owners)

/-- The members of one kind that bear the name. -/
def membersNamed (c : Compilation) (o : ResolveOptions) (kind : SymbolKind)
    (containers : List SymbolId) (name : String) : Except Fault (List SymbolId) :=
  c.named o (c.membersOfKind kind) containers name

/-- Those of the symbols that have as many type parameters. -/
def ofArity (c : Compilation) (arity : Nat) : List SymbolId → Except Fault (List SymbolId) :=
  select fun s => return (← c.typeParameters s).length == arity

/-- Those of the symbols whose parameters have these types. -/
def ofSignature (c : Compilation) (types : List SymbolId) :
    List SymbolId → Except Fault (List SymbolId) :=
  select fun s => return (← c.parameterTypes s) == types

/-- The named types of a name and an arity. -/
def typesNamed (c : Compilation) (o : ResolveOptions) (containers : List SymbolId) (name : String)
    (arity : Nat) : Except Fault (List SymbolId) := do
  c.ofArity arity (← c.membersNamed o .namedType containers name)

/-- The methods of a name and an arity, whatever their parameters. -/
def methodsNamed (c : Compilation) (o : ResolveOptions) (containers : List SymbolId) (name : String)
    (arity : Nat) : Except Fault (List SymbolId) := do
  c.ofArity arity (← c.membersNamed o .method containers name)

/-- The properties of a name whose parameters have these types. -/
def propertiesNamed (c : Compilation) (o : ResolveOptions) (containers : List SymbolId)
    (name : String) (types : List SymbolId) : Except Fault (List SymbolId) := do
  c.ofSignature types (← c.membersNamed o .property containers name)

/-- In each method, the local at the given place among those of the name. -/
def localsNumbered (c : Compilation) (o : ResolveOptions) (methods : List SymbolId) (name : String)
    (ordinal : Nat) : Except Fault (List SymbolId) :=
  pick (fun m => return (← c.localsNamed (o.namesMatch · name) m)[ordinal]?) methods

end Moniker.Compilation
