/-!
# Logging

Log records have a level, from errors down to traces, and a target that says which part of a
program speaks. A sink decides which records pass and writes each as one line, the level in
front.
-/

namespace Moniker

/-- How important a record is, the most important first. -/
inductive Level where
  | error
  | warn
  | info
  | debug
  | trace
  deriving Repr, DecidableEq

namespace Level

/-- Greater for the more verbose. -/
def verbosity : Level → Nat
  | .error => 1
  | .warn => 2
  | .info => 3
  | .debug => 4
  | .trace => 5

def label : Level → String
  | .error => "error"
  | .warn => "warn"
  | .info => "info"
  | .debug => "debug"
  | .trace => "trace"

/-- The terminal colour of the level. -/
def color : Level → String
  | .error => "31"
  | .warn => "33"
  | .info => "34"
  | .debug => "35"
  | .trace => "32"

end Level

/-- The most verbose level that passes, or nothing at all. -/
inductive LevelFilter where
  | off
  | upTo (level : Level)
  deriving Repr, DecidableEq

namespace LevelFilter

def verbosity : LevelFilter → Nat
  | .off => 0
  | .upTo level => level.verbosity

def passes (filter : LevelFilter) (level : Level) : Bool := level.verbosity ≤ filter.verbosity

def label : LevelFilter → String
  | .off => "OFF"
  | .upTo level => level.label.toUpper

end LevelFilter

structure LogRecord where
  level : Level
  target : String
  message : String

/-- A sink passes records up to a level, and those of certain targets up to levels of their
own. -/
structure Sink where
  general : LevelFilter
  targets : List (String × LevelFilter) := []

namespace Sink

/-- Passes everything up to a level. -/
def base (level : LevelFilter) : Sink := { general := level }

/-- The target of this library's own records. -/
def ownTarget : String := "symkey"

/-- Passes this library's own records up to a level, and warnings from everyone else. -/
def quiet (level : LevelFilter) : Sink :=
  { general := .upTo .warn, targets := [(ownTarget, level)] }

/-- The paths that enclose a path, innermost first, all written backwards. Two colons make a
separator, and separators are taken from the end of the path on: where an odd number of colons
stands together, the first one belongs to the name before it. -/
def enclosing : List Char → List (List Char)
  | [] => []
  | ':' :: ':' :: outer => outer :: enclosing outer
  | _ :: outer => enclosing outer

/-- A target and the modules that it lies in, innermost first. -/
def modulesOf (target : String) : List String :=
  target :: (enclosing target.toList.reverse).map fun outer => String.ofList outer.reverse

/-- The filter for a target: that of the innermost of its modules that has one of its own. -/
def filterFor (s : Sink) (target : String) : LevelFilter :=
  ((modulesOf target).findSome? fun path => s.targets.lookup path).getD s.general

def enabled (s : Sink) (level : Level) (target : String) : Bool :=
  (s.filterFor target).passes level

/-- The most verbose filter of the sink. -/
def mostVerbose (s : Sink) : LevelFilter :=
  s.targets.foldl
    (fun most entry => if most.verbosity < entry.2.verbosity then entry.2 else most) s.general

/-- The line that a record becomes. -/
def line (color : Bool) (record : LogRecord) : String :=
  let tag := record.level.label ++ ":"
  let tag := if color then "\x1b[" ++ record.level.color ++ "m" ++ tag ++ "\x1b[0m" else tag
  tag ++ " " ++ record.message ++ "\n"

/-- What the sink writes for a record: its line, or nothing. -/
def write (s : Sink) (color : Bool) (record : LogRecord) : String :=
  if s.enabled record.level record.target then line color record else ""

/-- Why a sink cannot be installed where there is one already. A library does not own the
program's log, so this is an answer and not a fault. -/
def alreadyInstalled : String :=
  "attempted to set a logger after the logging system was already initialized"

end Sink
end Moniker
