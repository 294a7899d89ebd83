import Moniker.Presence
import Moniker.Symbol

/-!
# Buffer arenas

Resolving a key gathers arrays in buffers on loan from an arena, which keeps buffers that
have come back for the next loan. Retention is bounded twice: a pool keeps so many idle
buffers, and none that has grown too large. A buffer grows by doubling, so how large it gets
depends on what it was used for before. `Pool` keeps the books for one element type, and
`Arena` has a pool for each.
-/

namespace Moniker

/-- Idle buffers kept per pool. -/
def maxIdle : Nat := 16

/-- Buffers with room for more elements than this are not kept. -/
def maxRetained : Nat := 1024

/-- Elements, and room for `capacity` of them. -/
structure Buffer (α : Type) where
  items : Array α := #[]
  capacity : Nat := 0
  /-- The least room that a buffer makes when it makes any. -/
  least : Nat := 4

namespace Buffer

/-- Makes room for `n` more elements, at least doubling the room if there is too little. -/
def reserve (b : Buffer α) (n : Nat) : Buffer α :=
  if b.capacity < b.items.size + n then
    { b with capacity := max (2 * b.capacity) (max (b.items.size + n) b.least) }
  else b

def push (b : Buffer α) (item : α) : Buffer α :=
  let roomy := b.reserve 1
  { roomy with items := roomy.items.push item }

/-- Drops the elements and keeps the room. -/
def clear (b : Buffer α) : Buffer α := { b with items := #[] }

end Buffer

/-- A buffer on loan, and the presence of the array that it holds. -/
structure Loan (α : Type) where
  presence : Presence
  buffer : Buffer α

namespace Loan

def items (l : Loan α) : List α := l.buffer.items.toList

def push (l : Loan α) (item : α) : Loan α := { l with buffer := l.buffer.push item }

/-- Pushes the same element `n` times. -/
def fill (l : Loan α) (item : α) : Nat → Loan α
  | 0 => l
  | n + 1 => fill (l.push item) item n

/-- One-line listing of a loan. -/
def render (item : α → String) (l : Loan α) : String :=
  "Pooled \x7b presence: " ++ l.presence.label ++ ", items: [" ++
    String.intercalate ", " (l.items.map item) ++ "] \x7d"

end Loan

/-- Lends buffers of one element type. -/
structure Pool (α : Type) where
  /-- The buffers that are not on loan, the one that came back last in front. -/
  idle : List (Buffer α) := []
  /-- How many buffers are on loan. -/
  outstanding : Nat := 0
  least : Nat := 4

namespace Pool

/-- Lends the buffer that came back last, or else a new one, with room for the announced
elements. The room made beforehand is capped, so an announcement costs nothing until
elements follow. -/
def acquire (presence : Presence) (n : Nat) (p : Pool α) : Loan α × Pool α :=
  let (buffer, idle) :=
    match p.idle with
    | buffer :: idle => (buffer, idle)
    | [] => ({ least := p.least }, [])
  (⟨presence, buffer.reserve (min n maxRetained)⟩,
    { p with idle := idle, outstanding := p.outstanding + 1 })

/-- Takes a buffer back, and keeps it if it is not too large and there is room for it. -/
def release (loan : Loan α) (p : Pool α) : Pool α :=
  let idle :=
    if loan.buffer.capacity ≤ maxRetained ∧ p.idle.length < maxIdle then
      loan.buffer.clear :: p.idle
    else p.idle
  { p with idle := idle, outstanding := p.outstanding - 1 }

end Pool

/-- One pool for each element type of the arrays in keys. -/
structure Arena where
  symbols : Pool SymbolId := {}
  strings : Pool (Option String) := {}
  bools : Pool Bool := { least := 8 }
  locations : Pool Location := {}

/-- An arena lends buffers of `α`. -/
class Lends (α : Type) where
  pool : Arena → Pool α
  setPool : Pool α → Arena → Arena

instance : Lends SymbolId where
  pool := Arena.symbols
  setPool p a := { a with symbols := p }

instance : Lends (Option String) where
  pool := Arena.strings
  setPool p a := { a with strings := p }

instance : Lends Bool where
  pool := Arena.bools
  setPool p a := { a with bools := p }

instance : Lends Location where
  pool := Arena.locations
  setPool p a := { a with locations := p }

namespace Arena

/-- Buffers on loan, of every type. -/
def outstanding (a : Arena) : Nat :=
  a.symbols.outstanding + a.strings.outstanding + a.bools.outstanding + a.locations.outstanding

/-- Buffers kept for the next loan, of every type. -/
def idle (a : Arena) : Nat :=
  a.symbols.idle.length + a.strings.idle.length + a.bools.idle.length + a.locations.idle.length

def acquire [Lends α] (presence : Presence) (n : Nat) (a : Arena) : Loan α × Arena :=
  let (loan, pool) := (Lends.pool a).acquire presence n
  (loan, Lends.setPool pool a)

def release [Lends α] (loan : Loan α) (a : Arena) : Arena :=
  Lends.setPool ((Lends.pool a).release loan) a

end Arena

/-- A loan from any of the pools. -/
inductive AnyLoan where
  | symbols (loan : Loan SymbolId)
  | strings (loan : Loan (Option String))
  | bools (loan : Loan Bool)
  | locations (loan : Loan Location)

namespace AnyLoan

/-- Borrows a buffer from the pool of that name. -/
def acquire? (pool : String) (presence : Presence) (n : Nat) (a : Arena) :
    Option (AnyLoan × Arena) :=
  match pool with
  | "symbols" => some ((a.acquire presence n).map .symbols id)
  | "strings" => some ((a.acquire presence n).map .strings id)
  | "bools" => some ((a.acquire presence n).map .bools id)
  | "locations" => some ((a.acquire presence n).map .locations id)
  | _ => none

def release : AnyLoan → Arena → Arena
  | .symbols loan, a => a.release loan
  | .strings loan, a => a.release loan
  | .bools loan, a => a.release loan
  | .locations loan, a => a.release loan

def presence : AnyLoan → Presence
  | .symbols loan => loan.presence
  | .strings loan => loan.presence
  | .bools loan => loan.presence
  | .locations loan => loan.presence

/-- How many elements the buffer holds. -/
def length : AnyLoan → Nat
  | .symbols loan => loan.buffer.items.size
  | .strings loan => loan.buffer.items.size
  | .bools loan => loan.buffer.items.size
  | .locations loan => loan.buffer.items.size

/-- One-line listing of a loan of symbols or truth values. -/
def render? : AnyLoan → Option String
  | .symbols loan => some (loan.render SymbolId.render)
  | .bools loan => some (loan.render toString)
  | _ => none

end AnyLoan
end Moniker
