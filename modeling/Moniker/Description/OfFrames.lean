import Moniker.Options
import Moniker.Scan

/-!
# Descriptions from frames

Reading a segment takes its kind frame and then the slots that its category calls for.
Nesting is limited: the budget is how many more segments may stand inside each other. What
is read depends on the frames, the limit and cancellation only; no compilation takes part.
-/

namespace Moniker.Description

open Scan

/-- The body of a segment, when `nested` reads the segments inside it. -/
def bodyOfFrames (nested : Scanner Description) : Category → Scanner Description
  | .nameSpace => do
    match ← bool.run with
    | .error d => return unflagged d
    | .ok true => return global
    | .ok false => return nameSpace (← nested) (← name.run)
  | .namedType => do
    let container ← nested
    let name ← name.run
    let arity ← count.run
    let (presence, arguments) ← array nested
    return namedType container name arity presence arguments
  | .arrayType => return arrayType (← nested) (← count.run)
  | .pointerType => return pointerType (← nested)
  | .tupleType => do
    let (presence, types) ← array nested
    return tupleType presence types (← listing text) (← listing location)
  | .anonymousType => do
    let (presence, types) ← array nested
    return anonymousType presence types (← listing text) (← listing bool) (← listing location)
  | .typeParameter => return typeParameter (← nested) (← name.run)
  | .typeParameterOrdinal => return typeParameterOrdinal (← count.run) (← count.run)
  | .field => return field (← nested) (← name.run)
  | .property => do
    let container ← nested
    let name ← name.run
    let (presence, parameters) ← array nested
    return property container name presence parameters
  | .method => do
    let container ← nested
    let name ← name.run
    let arity ← count.run
    let (presence, parameters) ← array nested
    return method container name arity presence parameters
  | .parameter => return parameter (← nested) (← name.run)
  | .localVariable => return localVariable (← nested) (← name.run) (← count.run)

/-- Fails if the scan has ended before or the caller has cancelled the call. -/
def admission (o : ResolveOptions) : Reading Unit := do
  resume
  if o.cancelled then
    raise .cancelled

/-- A segment that was read, or a place where none begins. -/
def orUnreadable : Slot Description → Description
  | .ok d => d
  | .error defect => unreadable defect

/-- Reads a segment. Cancellation and the limit are looked at before its kind frame, and a
segment that they forbid consumes nothing. -/
def ofFrames (o : ResolveOptions) : (budget : Nat) → Scanner Description
  | 0 => orUnreadable <$> ExceptT.run do
    admission o
    raise (.tooDeep o.maxDepth.toNat)
  | budget + 1 => orUnreadable <$> ExceptT.run do
    admission o
    bodyOfFrames (ofFrames o budget) (← kind)

end Moniker.Description
