import Moniker.Fault
import Moniker.Wire

/-!
# Source locations

A location is where a symbol is declared: a span in a file, or nowhere for symbols that have
no declaration site. Coordinates are machine words counted from zero and shown counted from
one; arithmetic on them that leaves the word is a fault.
-/

namespace Moniker

/-- The sum of two words, if it is a word. -/
def addWords (a b : UInt64) : Except Fault UInt64 :=
  if a.toNat + b.toNat < UInt64.size then .ok (a + b) else .error .addOverflow

/-- The difference of two words, if it is not negative. -/
def subWords (a b : UInt64) : Except Fault UInt64 :=
  if b ≤ a then .ok (a - b) else .error .subOverflow

/-- A point in a file: line, column and offset, each counted from zero. -/
structure Pos where
  line : UInt64
  col : UInt64
  offset : UInt64
  deriving Repr, DecidableEq

namespace Pos

/-- Line and column, counted from one. -/
def render (p : Pos) : Except Fault String := do
  let line ← addWords p.line 1
  let col ← addWords p.col 1
  return s!"{line.toNat}:{col.toNat}"

/-- By line, then column, then offset. -/
def cmp (p q : Pos) : Ordering :=
  (compareOfLessAndEq p.line q.line).then
    ((compareOfLessAndEq p.col q.col).then (compareOfLessAndEq p.offset q.offset))

def format : Wire.Format Pos where
  write p :=
    Wire.Format.uint64.write p.line ++ Wire.Format.uint64.write p.col ++
      Wire.Format.uint64.write p.offset
  read := return ⟨← Wire.Format.uint64.read, ← Wire.Format.uint64.read, ← Wire.Format.uint64.read⟩

end Pos

/-- A stretch of a file from a point to a point. -/
structure Span where
  start : Pos
  stop : Pos
  deriving Repr, DecidableEq

namespace Span

/-- The span that holds no more than one point. -/
def ofPos (p : Pos) : Span := ⟨p, p⟩

/-- `length` units of one line. -/
def onLine (line col offset length : UInt64) : Except Fault Span := do
  let stopCol ← addWords col length
  let stopOffset ← addWords offset length
  return ⟨⟨line, col, offset⟩, ⟨line, stopCol, stopOffset⟩⟩

/-- How many lines the span touches. -/
def lines (s : Span) : Except Fault UInt64 := do
  addWords (← subWords s.stop.line s.start.line) 1

def length (s : Span) : Except Fault UInt64 := subWords s.stop.offset s.start.offset

def isEmpty (s : Span) : Except Fault Bool := return (← s.length) == 0

/-- From the start of this span to the end of another. -/
def extendTo (s other : Span) : Span := ⟨s.start, other.stop⟩

/-- A span is shown as its start. -/
def render (s : Span) : Except Fault String := s.start.render

/-- By start, then by end. -/
def cmp (s other : Span) : Ordering := (s.start.cmp other.start).then (s.stop.cmp other.stop)

def format : Wire.Format Span where
  write s := Pos.format.write s.start ++ Pos.format.write s.stop
  read := return ⟨← Pos.format.read, ← Pos.format.read⟩

end Span

/-- Where a symbol is declared. -/
inductive Location where
  /-- Stands for the declaration site of symbols that have none. -/
  | nowhere
  | source (path : String) (span : Span)
  deriving Repr, DecidableEq

namespace Location

def path? : Location → Option String
  | .nowhere => none
  | .source path _ => some path

def isNowhere (l : Location) : Bool := l == .nowhere

def render : Location → Except Fault String
  | .nowhere => return "<no location>"
  | .source path span => return path ++ ":" ++ (← span.render)

def format : Wire.Format Location where
  write
    | .nowhere => Wire.variant 0
    | .source path span => Wire.variant 1 ++ Wire.Format.text.write path ++ Span.format.write span
  read := do
    match ← Wire.readVariant 2 with
    | 0 => return .nowhere
    | _ => return .source (← Wire.Format.text.read) (← Span.format.read)

end Location
end Moniker
