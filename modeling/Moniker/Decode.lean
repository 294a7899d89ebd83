import Moniker.Arena
import Moniker.Compilation
import Moniker.Description
import Moniker.Event

/-!
# Decoding steps

Resolving a description queries a compilation and lets it build types, borrows buffers, and
records events. A step may be halted by a defect of the key or by a fault; what happened
before stays done. Buffers go back to the arena on every way out of the step that borrowed
them.

`query`, `build` and `tryBuild` turn to the compilation, `borrow` and `during` to the arena.
`segment` works inside a segment, `require` goes on with a part that resolved, and `listing`
and `elements` gather arrays.
-/

namespace Moniker

/-- What resolving works on. -/
structure Scene where
  compilation : Compilation
  arena : Arena := {}
  events : Array Event := #[]

/-- Where in a key the work stands: a position among its frames, how many segments are open
around it, and the methods whose signatures it is inside of, outermost first. -/
structure Place where
  position : Nat := 0
  depth : Nat := 0
  methods : List SymbolId := []
  deriving Repr, DecidableEq

namespace Place

/-- The place `n` frames further on. -/
def forward (p : Place) (n : Nat) : Place := { p with position := p.position + n }

/-- Inside the segment that begins here, after its kind frame. -/
def enter (p : Place) : Place := { p with position := p.position + 1, depth := p.depth + 1 }

/-- Inside the signature of a method. -/
def within (p : Place) (method : SymbolId) : Place := { p with methods := p.methods ++ [method] }

end Place

/-- Why a step did not run to its end. -/
inductive Halt where
  | defect (defect : Defect)
  /-- A fault, and the place where the work stood. -/
  | fault (fault : Fault) (place : Place)
  deriving Repr, DecidableEq

/-- A decoding step. -/
abbrev Decode := ExceptT Halt (StateM Scene)

namespace Decode

/-- What a slot holds. -/
def ofSlot : Slot α → Decode α
  | .ok a => pure a
  | .error d => throw (.defect d)

def emit (event : Event) : Decode Unit :=
  modify fun scene => { scene with events := scene.events.push event }

/-- Asks the compilation. -/
def query (place : Place) (question : Compilation → Except Fault α) : Decode α := do
  match question (← get).compilation with
  | .ok a => return a
  | .error fault => throw (.fault fault place)

/-- Lets the compilation build something. -/
def build (request : Compilation → α × Compilation) : Decode α := do
  let scene ← get
  let (a, compilation) := request scene.compilation
  set { scene with compilation := compilation }
  return a

/-- Lets the compilation build something out of symbols that it has to know. -/
def tryBuild (place : Place) (request : Compilation → Except Fault (α × Compilation)) :
    Decode α := do
  let scene ← get
  match request scene.compilation with
  | .ok (a, compilation) =>
    set { scene with compilation := compilation }
    return a
  | .error fault => throw (.fault fault place)

/-- Borrows a buffer for an array that announces `n` elements. -/
def borrow [Lends α] (presence : Presence) (n : Nat) : Decode (Loan α) := do
  let scene ← get
  let (loan, arena) := scene.arena.acquire presence n
  set { scene with arena := arena }
  return loan

/-- Gives a buffer back. -/
def giveBack [Lends α] (loan : Loan α) : Decode Unit :=
  modify fun scene => { scene with arena := scene.arena.release loan }

/-- Runs a step, and gives the buffer back if the step is halted. -/
def orGiveBack [Lends α] (loan : Loan α) (step : Decode β) : Decode β :=
  tryCatch step fun halt => do
    giveBack loan
    throw halt

/-- Runs a step while a buffer is on loan, and gives the buffer back however the step ends. -/
def during [Lends α] (loan : Loan α) (step : Decode β) : Decode β := do
  let b ← orGiveBack loan step
  giveBack loan
  return b

/-- The same for an array that may have failed, which leaves nothing on loan. -/
def duringEither [Lends α] (loan : Except Failure (Loan α)) (step : Decode β) : Decode β :=
  match loan with
  | .ok loan => during loan step
  | .error _ => step

/-- Works inside a segment: records that it was entered, and that it failed if it did. -/
def segment (d : Description) (place : Place) (body : Place → Decode Resolved) :
    Decode Resolved := do
  match d.category? with
  | none => body place
  | some category =>
    emit (.entered category place.enter.position)
    let resolved ← body place.enter
    if let .error reason := resolved then
      emit (.failed category reason)
    return resolved

/-- Goes on with a part of a segment that resolved; a part that failed is the segment's
failure. -/
def require (category : Category) (part : String) (resolved : Except Failure α)
    (onward : α → Decode Resolved) : Decode Resolved :=
  match resolved with
  | .ok a => onward a
  | .error cause => return .error (.field category.codec part cause)

/-! ## Arrays -/

/-- Fills a buffer with the items of an array of plain values. -/
def gather [Lends α] : List (Slot α) → Loan α → Decode (Loan α)
  | [], loan => pure loan
  | item :: rest, loan => do
    let a ← orGiveBack loan (ofSlot item)
    gather rest (loan.push a)

/-- An array of plain values, in a buffer. -/
def listing [Lends α] (l : Listing α) : Decode (Loan α) := do
  let loan ← borrow (← ofSlot l.presence) l.items.length
  gather l.items loan

/-- Runs the steps that resolve the elements of an array, from the given index on, and fills
a buffer with those that resolve. All steps are run, and the first failure is the outcome. -/
def collect [Lends α] (index : Nat) : List (Decode (Except Failure α)) → Loan α → Option Failure →
    Decode (Except Failure (Loan α))
  | [], loan, none => return .ok loan
  | [], loan, some reason => do
    giveBack loan
    return .error reason
  | step :: rest, loan, failure => do
    match ← orGiveBack loan step with
    | .ok a => collect (index + 1) rest (loan.push a) failure
    | .error reason => collect (index + 1) rest loan (failure <|> some (.element index reason))

/-- An array whose elements are resolved by steps, in a buffer. -/
def elements [Lends α] (presence : Slot Presence) (steps : List (Decode (Except Failure α))) :
    Decode (Except Failure (Loan α)) := do
  let loan ← borrow (← ofSlot presence) steps.length
  collect 0 steps loan none

/-- A location resolves if its file belongs to the compilation. -/
def location (item : Slot Location) : Decode (Except Failure Location) := do
  match ← ofSlot item with
  | .nowhere => return .ok .nowhere
  | .source path span =>
    if (← get).compilation.containsFile path then return .ok (.source path span)
    else return .error (.notInCompilation path)

def locations (l : Listing Location) : Decode (Except Failure (Loan Location)) :=
  elements l.presence (l.items.map location)

/-- An element that resolves to several candidates stands for the first of them. -/
def first (resolved : Resolved) : Except Failure SymbolId := do
  match (← resolved).any? with
  | some s => return s
  | none => throw (.notFound "SymbolKey" "<no candidates>")

end Decode
end Moniker
