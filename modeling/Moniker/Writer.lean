import Moniker.Description.OfSymbol

/-!
# Writers

A writer puts together the frames of a key, one value at a time, each in the form that a
reader takes it back from. Besides the frames a writer keeps the methods whose signatures
are being written, for `symbol` and `body` to tell when a type parameter belongs to one of
them.
-/

namespace Moniker

structure Writer where
  frames : List Frame := []
  /-- The methods whose signatures are being written, outermost first. -/
  methods : List SymbolId := []

namespace Writer

def append (w : Writer) (frames : List Frame) : Writer := { w with frames := w.frames ++ frames }

/-- Writes a segment. -/
def symbol (c : Compilation) (s : SymbolId) (w : Writer) : Except Fault Writer := do
  return w.append (← Description.ofSymbol c w.methods s).frames

/-- Writes an array of segments. No list at all is written as an absent array. -/
def symbols (c : Compilation) (items : Option (List SymbolId)) (w : Writer) :
    Except Fault Writer := do
  let w := w.append [.header (.ofItems? items) (items.getD []).length]
  (items.getD []).foldlM (fun w s => w.symbol c s) w

/-- Writes the body of a segment of the given category, whatever the symbol's own. -/
def body (c : Compilation) (category : Category) (s : SymbolId) (w : Writer) :
    Except Fault Writer := do
  let nested := Description.ofSymbolWithin c (Description.depthBound c)
  return w.append (← Description.ofSymbolAs c nested w.methods s category).body

def text (value : Option String) (w : Writer) : Writer := w.append [.text value]

def bool (value : Bool) (w : Writer) : Writer := w.append [.bool value]

def int (value : Int64) (w : Writer) : Writer := w.append [.int value]

def count (n : Nat) (w : Writer) : Writer := w.append [.count n]

def location (value : Location) (w : Writer) : Writer := w.append (Frame.ofLocation value)

/-- Writes an array of plain values. No list at all is written as an absent array. -/
def listing (write : α → List Frame) (items : Option (List α)) (w : Writer) : Writer :=
  w.append ((Listing.ofItems? items).frames write)

def texts (items : Option (List (Option String))) : Writer → Writer :=
  listing (fun value => [.text value]) items

def bools (items : Option (List Bool)) : Writer → Writer :=
  listing (fun value => [.bool value]) items

def locations (items : Option (List Location)) : Writer → Writer := listing Frame.ofLocation items

/-- Goes inside the signature of a method. -/
def pushMethod (method : SymbolId) (w : Writer) : Writer :=
  { w with methods := w.methods ++ [method] }

/-- Leaves the innermost signature. -/
def popMethod (w : Writer) : Writer := { w with methods := w.methods.dropLast }

/-- The innermost place of a method among those whose signatures are being written. -/
def methodIndex? (w : Writer) (method : SymbolId) : Option Nat :=
  Description.methodIndex? w.methods method

end Writer
end Moniker
