import Moniker.Draft

/-!
# Programs

A program is a draft until it is finished and a compilation from then on. Structural types
can be asked for at both stages; only those asked of a compilation count as its requests.
-/

namespace Moniker

/-- A program at one of its two stages. -/
inductive Program where
  | draft (draft : Draft)
  | finished (compilation : Compilation)

namespace Program

/-- What became of a request for a structural type, and the program after it. -/
abbrev Requested := Except Fault (Except Rejection SymbolId × Program)

def typeParameters (s : SymbolId) : Program → Except Fault (List SymbolId)
  | .draft d => d.typeParameters s
  | .finished c => c.typeParameters s

def array (element : SymbolId) (rank : UInt64) : Program → SymbolId × Program
  | .draft d => (d.array element rank).map id .draft
  | .finished c => (c.arrayType element rank).map id .finished

def pointer (pointee : SymbolId) : Program → SymbolId × Program
  | .draft d => (d.pointer pointee).map id .draft
  | .finished c => (c.pointerType pointee).map id .finished

def construct (definition : SymbolId) (arguments : List SymbolId) : Program → Requested
  | .draft d => (·.map id .draft) <$> d.construct definition arguments
  | .finished c => (·.map id .finished) <$> c.construct definition arguments

def tuple (types : List SymbolId) (names : List (Option String)) (locations : List Location) :
    Program → Except Rejection SymbolId × Program
  | .draft d => (d.tuple types names locations).map id .draft
  | .finished c => (c.tupleType types names locations).map id .finished

def anonymous (types : List SymbolId) (names : List String) (readOnly : List Bool)
    (locations : List Location) : Program → Except Rejection SymbolId × Program
  | .draft d => (d.anonymous types names readOnly locations).map id .draft
  | .finished c => (c.anonymousType types names readOnly locations).map id .finished

end Program
end Moniker
