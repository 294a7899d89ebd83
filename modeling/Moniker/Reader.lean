import Moniker.Description.OfFrames
import Moniker.Description.Resolve

/-!
# Readers

A reader replays the frames of a key against a compilation, one value at a time. Reading a
value moves it past the frames of that value, whether or not the value could be made sense
of, and reading a segment leaves the nesting depth and the enclosing methods as they were.
Only a fault leaves the reader where it happened. All of this is `perform`: it scans for the
value first and makes sense of what it scanned afterwards.
-/

namespace Moniker

/-- The frames of a key, and a place among them. -/
structure Reader where
  frames : List Frame
  place : Place := {}

/-- What came of one read. -/
structure Reader.Outcome (α : Type) where
  value : Except Halt α
  reader : Reader
  scene : Scene

namespace Reader

def isAtEnd (r : Reader) : Bool := r.place.position == r.frames.length

/-- Goes back to a position that has been reached before. -/
def rewind (r : Reader) (position : Nat) : Except Fault Reader :=
  if position ≤ r.place.position then .ok { r with place := { r.place with position := position } }
  else .error .rewindAhead

/-- Goes on to a position, unless it has been passed. -/
def skipTo (r : Reader) (position : Nat) : Reader :=
  { r with place := { r.place with position := max r.place.position position } }

/-- Goes inside the signature of a method. -/
def pushMethod (r : Reader) (method : SymbolId) : Reader :=
  { r with place := r.place.within method }

/-- Leaves the innermost signature. -/
def popMethod (r : Reader) : Reader :=
  { r with place := { r.place with methods := r.place.methods.dropLast } }

/-- The enclosing method at a depth, the outermost at zero. -/
def methodAt? (r : Reader) (depth : Nat) : Option SymbolId := r.place.methods[depth]?

/-- Scans from where the reader stands, and moves it to where the scan stopped. -/
def scan (r : Reader) (step : Scanner α) : α × Reader × Scan :=
  let (a, scan) := step.run { position := r.place.position, rest := r.frames.drop r.place.position }
  (a, { r with place := { r.place with position := scan.position } }, scan)

/-- Reads a value that no compilation is needed for. -/
def read (r : Reader) (reading : Reading α) : Slot α × Reader :=
  let (slot, reader, _) := r.scan reading.run
  (slot, reader)

/-- Scans for a value, then makes sense of what was scanned. -/
def perform (r : Reader) (step : Scanner α) (meaning : α → Scan → Decode β) (scene : Scene) :
    Outcome β :=
  let (a, after, scan) := r.scan step
  match (meaning a scan).run scene with
  | (.error (.fault fault place), scene) =>
    ⟨.error (.fault fault place), { r with place := place }, scene⟩
  | (value, scene) => ⟨value, after, scene⟩

/-- How many segments may still stand inside each other. -/
def budget (r : Reader) (o : ResolveOptions) : Nat := o.maxDepth.toNat - r.place.depth

/-- Reads a segment. -/
def readKey (o : ResolveOptions) (r : Reader) : Scene → Outcome Resolved :=
  r.perform (Description.ofFrames o (r.budget o)) fun d _ => d.resolveAt o r.place

/-- Reads the whole key, after which no frames may be left. -/
def readRoot (o : ResolveOptions) (r : Reader) : Scene → Outcome Resolved :=
  r.perform (Description.ofFrames o (r.budget o)) fun d scan => do
    let resolved ← d.resolveAt o r.place
    if scan.rest.isEmpty then
      return resolved
    throw (.defect (.trailing scan.rest.length scan.position))

/-- Reads the body of a segment of the given category. -/
def readBody (o : ResolveOptions) (category : Category) (r : Reader) : Scene → Outcome Resolved :=
  r.perform (Description.bodyOfFrames (Description.ofFrames o (r.budget o)) category) fun d _ =>
    d.resolve o r.place

/-- Reads an array of segments. Whoever reads it has to give the buffer back. -/
def readKeys (o : ResolveOptions) (r : Reader) : Scene → Outcome (Except Failure (Loan SymbolId)) :=
  r.perform (Scan.array (Description.ofFrames o (r.budget o))) fun array _ =>
    Decode.elements array.1 (Description.resolveEach o array.2 (r.place.forward 1))

def readTexts (r : Reader) : Scene → Outcome (Loan (Option String)) :=
  r.perform (Scan.listing Scan.text) fun l _ => Decode.listing l

def readBools (r : Reader) : Scene → Outcome (Loan Bool) :=
  r.perform (Scan.listing Scan.bool) fun l _ => Decode.listing l

def readLocation (r : Reader) : Scene → Outcome (Except Failure Location) :=
  r.perform Scan.location.run fun l _ => Decode.location l

def readLocations (r : Reader) : Scene → Outcome (Except Failure (Loan Location)) :=
  r.perform (Scan.listing Scan.location) fun l _ => Decode.locations l

end Reader
end Moniker
