import Moniker.Lookup
import Moniker.Structural

/-!
# Resolving descriptions

Resolving follows the frames: nested segments resolve first, in the order in which they
stand, and a slot that holds a defect halts the work when its turn comes. Only when all of a
segment has been gone through is its symbol looked up or built; a part that failed then
makes the segment fail. Names, counts and arrays after a failed part are still gone through,
so what a defect does cannot depend on what is found.

`resolve` takes the place after the kind frame and `resolveAt` that of the kind frame
itself. A method's signature is gone through once per candidate (`replay`), as it may
mention the candidate's own type parameters.
-/

namespace Moniker.Description

open Decode

/-- What was found among the candidates for the container, or else that the name was not
found. -/
def found (category : Category) (name : String) (symbols : List SymbolId) : Resolved :=
  Resolution.ofCandidates symbols (.notFound category.codec name)

/-- Asks each definition for the type with these arguments: the types built, and the reasons
given for those that were not. -/
def constructEach (place : Place) (arguments : List SymbolId) :
    List SymbolId → Decode (List SymbolId × List String)
  | [] => return ([], [])
  | definition :: rest => do
    let answer ← tryBuild place fun c => c.construct definition arguments
    let (built, reasons) ← constructEach place arguments rest
    match answer with
    | .ok s => return (s :: built, reasons)
    | .error rejection => return (built, rejection.reason :: reasons)

/-- A generic definition if there are no arguments, else the types constructed from the
definitions. -/
def constructed (place : Place) (name : String) (definitions : List SymbolId)
    (arguments : Loan SymbolId) : Decode Resolved := do
  if arguments.presence.isAbsent || definitions.isEmpty then
    return found .namedType name definitions
  let (built, reasons) ← constructEach place arguments.items definitions
  let detail := s!"cannot construct '{name}': " ++ "; ".intercalate reasons
  return Resolution.ofCandidates built (.rejected Category.namedType.codec detail)

/-- The type parameter at a place in the list of an enclosing method. -/
def enclosing (place : Place) (depth ordinal : Nat) : Decode Resolved := do
  let codec := Category.typeParameterOrdinal.codec
  match place.methods[depth]? with
  | none => return .error (.unbound codec s!"no enclosing method at depth {depth}")
  | some owner =>
    match (← query place (·.typeParameters owner))[ordinal]? with
    | none => return .error (.unbound codec s!"method has no type parameter #{ordinal}")
    | some s => return .ok (.symbol s)

/-- What replaying a signature for each method candidate has come to: the methods that it
fits, and the first failure. -/
structure Replay where
  fitting : List SymbolId := []
  failure : Option Failure := none

/-- Replays a signature inside every candidate. A signature can mention the type parameters
of its own method, so it means something else for each of them. -/
def replay (place : Place) (signature : Place → Decode (Except Failure (Loan SymbolId))) :
    List SymbolId → Replay → Decode Replay
  | [], sofar => return sofar
  | candidate :: rest, sofar => do
    match ← signature (place.within candidate) with
    | .error reason =>
      replay place signature rest { sofar with failure := sofar.failure <|> some reason }
    | .ok types =>
      let fits ← during types do
        return (← query place (·.parameterTypes candidate)) == types.items
      replay place signature rest
        (if fits then { sofar with fitting := sofar.fitting ++ [candidate] } else sofar)

/-- The methods whose parameters have the types that the signature gives. Without candidates
it is still gone through once. -/
def replayAll (place : Place) (signature : Place → Decode (Except Failure (Loan SymbolId)))
    (candidates : List SymbolId) : Decode Replay := do
  if candidates.isEmpty then
    match ← signature place with
    | .ok types => giveBack types
    | .error _ => pure ()
  replay place signature candidates {}

mutual

/-- Resolves a segment, given the place after its kind frame. -/
def resolve (o : ResolveOptions) : Description → Place → Decode Resolved
  | unreadable defect, _ => throw (.defect defect)
  | unflagged defect, _ => throw (.defect defect)
  | global, _ => return .ok (.symbol (← get).compilation.global)
  | nameSpace container name, place => do
    let container ← segment container (place.forward 1) (resolve o container)
    let name ← ofSlot name
    require .nameSpace "containingNamespace" container fun container => do
      return found .nameSpace name
        (← query place (·.membersNamed o .nameSpace container.candidates name))
  | namedType container name arity presence arguments, place => do
    let inside := place.forward (container.width + 3)
    let container ← segment container place (resolve o container)
    let name ← ofSlot name
    let arity ← ofSlot arity
    let arguments ← elements presence (resolveEach o arguments inside)
    duringEither arguments do
      require .namedType "containingSymbol" container fun container =>
        require .namedType "typeArguments" arguments fun arguments => do
          let definitions ← query place (·.typesNamed o container.candidates name arity)
          constructed place name definitions arguments
  | arrayType element rank, place => do
    let element ← segment element place (resolve o element)
    let rank ← ofSlot rank
    require .arrayType "elementType" element fun element => do
      return .ok (← element.mapM fun s => build (·.arrayType s (UInt64.ofNat rank)))
  | pointerType pointee, place => do
    let pointee ← segment pointee place (resolve o pointee)
    require .pointerType "pointedAtType" pointee fun pointee => do
      return .ok (← pointee.mapM fun s => build (·.pointerType s))
  | tupleType presence types names locations, place => do
    let types ← elements presence (resolveEach o types (place.forward 1))
    duringEither types do
      let names ← listing names
      during names do
        let locations ← Decode.locations locations
        duringEither locations do
          require .tupleType "elementTypes" types fun types =>
            require .tupleType "elementLocations" locations fun locations =>
              Fallback.fail.rebuild Category.tupleType.codec types.presence
                (build (·.tupleType types.items names.items locations.items))
  | anonymousType presence types names readOnly locations, place => do
    let types ← elements presence (resolveEach o types (place.forward 1))
    duringEither types do
      let names ← listing names
      during names do
        let readOnly ← listing readOnly
        during readOnly do
          let locations ← Decode.locations locations
          duringEither locations do
            require .anonymousType "propertyTypes" types fun types =>
              require .anonymousType "propertyLocations" locations fun locations =>
                Fallback.universal.rebuild Category.anonymousType.codec types.presence
                  (build (·.anonymousType types.items (names.items.map (·.getD "")) readOnly.items
                    locations.items))
  | typeParameter owner name, place => do
    let owner ← segment owner place (resolve o owner)
    let name ← ofSlot name
    require .typeParameter "owner" owner fun owner => do
      return found .typeParameter name
        (← query place fun c => c.named o c.typeParameters owner.candidates name)
  | typeParameterOrdinal depth ordinal, place => do
    let depth ← ofSlot depth
    let ordinal ← ofSlot ordinal
    enclosing (place.forward 2) depth ordinal
  | field container name, place => do
    let container ← segment container place (resolve o container)
    let name ← ofSlot name
    require .field "containingType" container fun container => do
      return found .field name (← query place (·.membersNamed o .field container.candidates name))
  | property container name presence parameters, place => do
    let inside := place.forward (container.width + 2)
    let container ← segment container place (resolve o container)
    let name ← ofSlot name
    let types ← elements presence (resolveEach o parameters inside)
    duringEither types do
      require .property "containingType" container fun container =>
        require .property "parameterTypes" types fun types => do
          return found .property name
            (← query place (·.propertiesNamed o container.candidates name types.items))
  | method container name arity presence parameters, place => do
    let inside := place.forward (container.width + 3)
    let container ← segment container place (resolve o container)
    let name ← ofSlot name
    let arity ← ofSlot arity
    let candidates ←
      match container with
      | .ok container => query place (·.methodsNamed o container.candidates name arity)
      | .error _ => pure []
    let outcome ←
      replayAll inside (fun p => elements presence (resolveEach o parameters p)) candidates
    require .method "containingType" container fun _ => do
      match outcome.fitting, outcome.failure with
      | [], some reason => return .error (.field Category.method.codec "parameterTypes" reason)
      | fitting, _ => return found .method name fitting
  | parameter owner name, place => do
    let owner ← segment owner place (resolve o owner)
    let name ← ofSlot name
    require .parameter "containingSymbol" owner fun owner => do
      return found .parameter name
        (← query place fun c => c.named o c.parameters owner.candidates name)
  | localVariable owner name ordinal, place => do
    let owner ← segment owner place (resolve o owner)
    let name ← ofSlot name
    let ordinal ← ofSlot ordinal
    require .localVariable "containingMethod" owner fun owner => do
      return Resolution.ofCandidates
        (← query place (·.localsNumbered o owner.candidates name ordinal))
        (.notFound Category.localVariable.codec s!"{name}#{ordinal}")

/-- The steps that resolve the segments of an array, the first of which begins at the place. -/
def resolveEach (o : ResolveOptions) :
    List Description → Place → List (Decode (Except Failure SymbolId))
  | [], _ => []
  | d :: rest, place =>
    (first <$> segment d place (resolve o d)) :: resolveEach o rest (place.forward d.width)

end

/-- Resolves a segment, given the place of its kind frame. -/
def resolveAt (o : ResolveOptions) (d : Description) (place : Place) : Decode Resolved :=
  segment d place (resolve o d)

end Moniker.Description
