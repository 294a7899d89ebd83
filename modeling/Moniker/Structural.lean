import Moniker.Decode

/-!
# Rebuilding structural types

Structural types have no name to look up. Once the arrays of a shape have resolved, the
compilation is asked to build it. What happens when the compilation will not, or when the
key recorded no shape at all, is a matter of the category.
-/

namespace Moniker

/-- What stands in for a structural type that is not built. -/
inductive Fallback where
  /-- The compilation's root type. -/
  | universal
  /-- Nothing: the segment fails. -/
  | fail
  deriving Repr, DecidableEq

namespace Fallback

/-- The outcome without the structural type. -/
def outcome (fallback : Fallback) (codec detail : String) : Decode Resolved := do
  match fallback with
  | .universal => return .ok (.symbol (← get).compilation.universal)
  | .fail => return .error (.rejected codec detail)

/-- Asks for a structural type, unless its shape is absent. -/
def rebuild (fallback : Fallback) (codec : String) (presence : Presence)
    (request : Decode (Except Rejection SymbolId)) : Decode Resolved := do
  if presence.isAbsent then
    Decode.emit (.shapeless codec)
    fallback.outcome codec "no shape recorded"
  else
    match ← request with
    | .ok s => return .ok (.symbol s)
    | .error rejection =>
      Decode.emit (.rejected codec rejection)
      fallback.outcome codec rejection.reason

end Fallback
end Moniker
