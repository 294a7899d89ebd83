import Moniker.Wire

/-!
# Presence of arrays

An array in a key is absent, empty or populated. Absent means that there was nothing to
describe, which is not the same as a shape without elements.
-/

namespace Moniker

/-- Whether there is an array, and whether it has elements. -/
inductive Presence where
  | absent
  | empty
  | populated
  deriving Repr, DecidableEq

namespace Presence

/-- Presence of an array that was written with `n` elements. -/
def ofLength (n : Nat) : Presence := if n = 0 then .empty else .populated

/-- Presence of an array that may not be there at all. -/
def ofItems? : Option (List α) → Presence
  | none => .absent
  | some items => ofLength items.length

def isAbsent (p : Presence) : Bool := p == .absent

/-- Whether a header with this presence may announce `n` elements. -/
def admits (p : Presence) (n : Nat) : Bool :=
  match p with
  | .absent | .empty => n == 0
  | .populated => n != 0

/-- The word used in defects and listings. -/
def label : Presence → String
  | .absent => "Absent"
  | .empty => "Empty"
  | .populated => "Populated"

def format : Wire.Format Presence := .choice [.absent, .empty, .populated]

end Presence
end Moniker
