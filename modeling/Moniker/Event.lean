import Moniker.Defect
import Moniker.Logging
import Moniker.Resolution

/-!
# Events

What happens while keys are made and resolved, in order. Entering a segment and making a key
are traces, failures and substitutions are for debugging, and only an unusable key is worth
a warning.
-/

namespace Moniker

inductive Event where
  /-- A key was made; its text form. -/
  | created (key : String)
  /-- A segment was entered; the position after its kind frame. -/
  | entered (category : Category) (position : Nat)
  /-- A segment failed. -/
  | failed (category : Category) (reason : Failure)
  /-- A structural type came without a shape. -/
  | shapeless (codec : String)
  /-- A compilation rejected a shape. -/
  | rejected (codec : String) (rejection : Rejection)
  | ambiguous (key : String) (candidates : Nat)
  | unresolved (key : String) (reason : Failure)
  | unusable (key : String) (defect : Defect)

namespace Event

def level : Event → Level
  | .created _ | .entered _ _ => .trace
  | .failed _ _ | .shapeless _ | .rejected _ _ | .ambiguous _ _ | .unresolved _ _ => .debug
  | .unusable _ _ => .warn

def message : Event → String
  | .created key => s!"[symbol_key] created {key}"
  | .entered category position => s!"[symbol_key] {category.codec} at frame {position}"
  | .failed category reason => s!"[symbol_key] {category.codec} failed: {reason.render}"
  | .shapeless codec => s!"[symbol_key] {codec}: no shape recorded"
  | .rejected codec rejection => s!"[symbol_key] {codec}: {rejection.render}"
  | .ambiguous key candidates => s!"[symbol_key] {key} is ambiguous ({candidates} candidates)"
  | .unresolved key reason => s!"[symbol_key] {key} did not resolve: {reason.render}"
  | .unusable key defect => s!"[symbol_key] {key} is unusable: {defect.report.render}"

/-- Level and message in one line. -/
def render (e : Event) : String := e.level.label ++ " " ++ e.message

end Event
end Moniker
