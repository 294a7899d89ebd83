/-!
# Faults

A fault ends a run on the spot. It is no verdict on a key or a symbol: it says that a caller
broke a rule that the library relies on, such as passing a symbol that the compilation never
issued.
-/

namespace Moniker

/-- Why a run ended on the spot. -/
inductive Fault where
  /-- Entry `index` of a table that has `size` entries. -/
  | outOfRange (size index : Nat)
  /-- A sum that does not fit a machine word. -/
  | addOverflow
  /-- A difference below zero. -/
  | subOverflow
  /-- A reader was asked to go back to a position that it has not reached. -/
  | rewindAhead
  /-- Raised on purpose by a caller's own code. -/
  | raised (text : String)
  /-- The symbol's description contains itself and never ends. -/
  | endless
  deriving Repr, DecidableEq

/-- Wording of a fault. -/
def Fault.message : Fault → String
  | .outOfRange size index => s!"index out of bounds: the len is {size} but the index is {index}"
  | .addOverflow => "attempt to add with overflow"
  | .subOverflow => "attempt to subtract with overflow"
  | .rewindAhead => "assertion failed: pos <= self.pos"
  | .raised text => text
  | .endless => "the description does not end"

end Moniker
