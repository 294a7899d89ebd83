import Moniker.Description.Resolve
import Moniker.Proofs.Defects
import Moniker.Proofs.Queries

/-!
# Locating what a description describes

`Description.locate` is resolution with everything taken away that does not bear on its
outcome: it has no buffers, no events and no positions, queries are answered from the entries,
and the compilation is handed from one segment to the next. It is meant for descriptions
without defects; what it makes of others is of no account. That resolving a description comes
to what locating it does is `Description.resolve_ends` in `Moniker.Proofs.Resolving`.
-/

namespace Moniker

/-- An array comes to its elements, or to the first failure among them. -/
def gathered (index : Nat) : List (Except Failure α) → Except Failure (List α)
  | [] => .ok []
  | .error reason :: _ => .error (.element index reason)
  | .ok a :: rest => (gathered (index + 1) rest).map (a :: ·)

/-- A part of a segment: when it fails, so does the segment. -/
def part (category : Category) (name : String) (resolved : Except Failure α) : Except Failure α :=
  resolved.mapError (.field category.codec name)

@[simp] theorem part_ok (category : Category) (name : String) (a : α) :
    part category name (.ok a) = .ok a := rfl

@[simp] theorem part_error (category : Category) (name : String) (reason : Failure) :
    part category name (.error reason : Except Failure α) =
      .error (.field category.codec name reason) := rfl

namespace Compilation

/-- A location resolves if its file belongs to the compilation. -/
def accept (c : Compilation) : Location → Except Failure Location
  | .nowhere => .ok .nowhere
  | .source path span =>
    if c.containsFile path then .ok (.source path span) else .error (.notInCompilation path)

/-- Lets a compilation build something out of each entry, one after the other. -/
def buildEach (build : Compilation → α → β × Compilation) :
    List α → Compilation → List β × Compilation
  | [], c => ([], c)
  | a :: rest, c =>
    let first := build c a
    let others := buildEach build rest first.2
    (first.1 :: others.1, others.2)

end Compilation

/-- What a lookup found, rebuilt into something else. -/
def Resolution.rebuilt (build : Compilation → SymbolId → SymbolId × Compilation) (c : Compilation) :
    Resolution SymbolId → Resolution SymbolId × Compilation
  | .symbol s => (.symbol (build c s).1, (build c s).2)
  | .ambiguous several =>
    (.ambiguous (Compilation.buildEach build several c).1,
      (Compilation.buildEach build several c).2)

namespace Fallback

/-- The outcome without the structural type. -/
def answer (fallback : Fallback) (codec detail : String) (c : Compilation) : Resolved :=
  match fallback with
  | .universal => .ok (.symbol c.universal)
  | .fail => .error (.rejected codec detail)

/-- The outcome of a request for a structural type, which is not made for an absent shape. -/
def settle (fallback : Fallback) (codec : String) (presence : Presence) (c : Compilation)
    (request : Except Rejection SymbolId × Compilation) : Resolved × Compilation :=
  if presence.isAbsent then (fallback.answer codec "no shape recorded" c, c)
  else
    match request.1 with
    | .ok s => (.ok (.symbol s), request.2)
    | .error rejection => (fallback.answer codec rejection.reason request.2, request.2)

end Fallback

namespace Description

/-- The types constructed from each of the definitions, or one of them if there are no
arguments. -/
def constructedAt (name : String) (presence : Presence) (definitions arguments : List SymbolId)
    (c : Compilation) : Resolved × Compilation :=
  if presence.isAbsent || definitions.isEmpty then (found .namedType name definitions, c)
  else
    let answers := Compilation.buildEach (·.constructAt arguments) definitions c
    let reasons := answers.1.filterMap fun
      | .ok _ => none
      | .error rejection => some rejection.reason
    (Resolution.ofCandidates (answers.1.filterMap Except.toOption)
      (.rejected Category.namedType.codec
        (s!"cannot construct '{name}': " ++ "; ".intercalate reasons)), answers.2)

/-- What is known after one more candidate, given its parameter types and what the signature
came to inside it. -/
def Replay.after (sofar : Replay) (candidate : SymbolId) (expected : List SymbolId) :
    Except Failure (List SymbolId) → Replay
  | .error reason => { sofar with failure := sofar.failure <|> some reason }
  | .ok types =>
    if expected == types then { sofar with fitting := sofar.fitting ++ [candidate] } else sofar

/-- The candidates that a signature fits, which is gone through inside each of them. -/
def replayed
    (signature : List SymbolId → Compilation → Except Failure (List SymbolId) × Compilation)
    (methods : List SymbolId) : List SymbolId → Replay → Compilation → Replay × Compilation
  | [], sofar, c => (sofar, c)
  | candidate :: rest, sofar, c =>
    let types := signature (methods ++ [candidate]) c
    replayed signature methods rest
      (sofar.after candidate (types.2.signatureAt candidate) types.1) types.2

/-- The same, where without candidates the signature is gone through once. -/
def replayedAll
    (signature : List SymbolId → Compilation → Except Failure (List SymbolId) × Compilation)
    (methods candidates : List SymbolId) (c : Compilation) : Replay × Compilation :=
  if candidates.isEmpty then ({}, (signature methods c).2)
  else replayed signature methods candidates {} c

/-- What a replayed method segment comes to. -/
def Replay.outcome (replay : Replay) (name : String) : Resolved :=
  match replay.fitting, replay.failure with
  | [], some reason => .error (.field Category.method.codec "parameterTypes" reason)
  | fitting, _ => found .method name fitting

/-- The type parameter at a place in the list of an enclosing method. -/
def enclosingAt (c : Compilation) (methods : List SymbolId) (depth ordinal : Nat) : Resolved :=
  match methods[depth]? with
  | none =>
    .error (.unbound Category.typeParameterOrdinal.codec s!"no enclosing method at depth {depth}")
  | some owner =>
    match (c.entry owner).typeParameters[ordinal]? with
    | none =>
      .error (.unbound Category.typeParameterOrdinal.codec
        s!"method has no type parameter #{ordinal}")
    | some s => .ok (.symbol s)

mutual

/-- What a description comes to inside the signatures of the given methods, and the
compilation afterwards. -/
def locate (o : ResolveOptions) :
    Description → List SymbolId → Compilation → Resolved × Compilation
  | unreadable _, _, c => (.ok (.symbol c.global), c)
  | unflagged _, _, c => (.ok (.symbol c.global), c)
  | global, _, c => (.ok (.symbol c.global), c)
  | nameSpace container name, methods, c =>
    let outer := locate o container methods c
    let name := name.valueOr ""
    ((part .nameSpace "containingNamespace" outer.1).bind fun r =>
      found .nameSpace name (outer.2.membersBearing o .nameSpace r.candidates name), outer.2)
  | namedType container name arity presence arguments, methods, c =>
    let outer := locate o container methods c
    let inner := locateEach o arguments methods outer.2
    match part .namedType "containingSymbol" outer.1,
        part .namedType "typeArguments" (gathered 0 inner.1) with
    | .error reason, _ => (.error reason, inner.2)
    | .ok _, .error reason => (.error reason, inner.2)
    | .ok r, .ok types =>
      constructedAt (name.valueOr "") (presence.valueOr .absent)
        (inner.2.genericsBearing o .namedType r.candidates (name.valueOr "") (arity.valueOr 0))
        types inner.2
  | arrayType element rank, methods, c =>
    let outer := locate o element methods c
    match part .arrayType "elementType" outer.1 with
    | .error reason => (.error reason, outer.2)
    | .ok r =>
      let built := r.rebuilt (fun c s => c.arrayType s (UInt64.ofNat (rank.valueOr 0))) outer.2
      (.ok built.1, built.2)
  | pointerType pointee, methods, c =>
    let outer := locate o pointee methods c
    match part .pointerType "pointedAtType" outer.1 with
    | .error reason => (.error reason, outer.2)
    | .ok r =>
      let built := r.rebuilt (fun c s => c.pointerType s) outer.2
      (.ok built.1, built.2)
  | tupleType presence types names locations, methods, c =>
    let inner := locateEach o types methods c
    match part .tupleType "elementTypes" (gathered 0 inner.1),
        part .tupleType "elementLocations" (gathered 0 (locations.values.map inner.2.accept)) with
    | .error reason, _ => (.error reason, inner.2)
    | .ok _, .error reason => (.error reason, inner.2)
    | .ok types, .ok locations =>
      Fallback.fail.settle Category.tupleType.codec (presence.valueOr .absent) inner.2
        (inner.2.tupleType types names.values locations)
  | anonymousType presence types names readOnly locations, methods, c =>
    let inner := locateEach o types methods c
    match part .anonymousType "propertyTypes" (gathered 0 inner.1),
        part .anonymousType "propertyLocations"
          (gathered 0 (locations.values.map inner.2.accept)) with
    | .error reason, _ => (.error reason, inner.2)
    | .ok _, .error reason => (.error reason, inner.2)
    | .ok types, .ok locations =>
      Fallback.universal.settle Category.anonymousType.codec (presence.valueOr .absent) inner.2
        (inner.2.anonymousType types (names.values.map (·.getD "")) readOnly.values locations)
  | typeParameter owner name, methods, c =>
    let outer := locate o owner methods c
    let name := name.valueOr ""
    ((part .typeParameter "owner" outer.1).bind fun r =>
      found .typeParameter name (outer.2.typeParametersBearing o r.candidates name), outer.2)
  | typeParameterOrdinal depth ordinal, methods, c =>
    (enclosingAt c methods (depth.valueOr 0) (ordinal.valueOr 0), c)
  | field container name, methods, c =>
    let outer := locate o container methods c
    let name := name.valueOr ""
    ((part .field "containingType" outer.1).bind fun r =>
      found .field name (outer.2.membersBearing o .field r.candidates name), outer.2)
  | property container name _ parameters, methods, c =>
    let outer := locate o container methods c
    let inner := locateEach o parameters methods outer.2
    let name := name.valueOr ""
    ((part .property "containingType" outer.1).bind fun r =>
      (part .property "parameterTypes" (gathered 0 inner.1)).bind fun types =>
        found .property name (inner.2.propertiesBearing o r.candidates name types), inner.2)
  | method container name arity _ parameters, methods, c =>
    let outer := locate o container methods c
    let name := name.valueOr ""
    let candidates :=
      match outer.1 with
      | .ok r => outer.2.genericsBearing o .method r.candidates name (arity.valueOr 0)
      | .error _ => []
    let signature := fun methods c =>
      let inner := locateEach o parameters methods c
      (gathered 0 inner.1, inner.2)
    let replay := replayedAll signature methods candidates outer.2
    ((part .method "containingType" outer.1).bind fun _ => replay.1.outcome name, replay.2)
  | parameter owner name, methods, c =>
    let outer := locate o owner methods c
    let name := name.valueOr ""
    ((part .parameter "containingSymbol" outer.1).bind fun r =>
      found .parameter name (outer.2.parametersBearing o r.candidates name), outer.2)
  | localVariable owner name ordinal, methods, c =>
    let outer := locate o owner methods c
    let name := name.valueOr ""
    let ordinal := ordinal.valueOr 0
    ((part .localVariable "containingMethod" outer.1).bind fun r =>
      Resolution.ofCandidates (outer.2.localsBearing o r.candidates name ordinal)
        (.notFound Category.localVariable.codec s!"{name}#{ordinal}"), outer.2)

/-- The segments of an array one after the other, each by its first candidate. -/
def locateEach (o : ResolveOptions) :
    List Description → List SymbolId → Compilation → List (Except Failure SymbolId) × Compilation
  | [], _, c => ([], c)
  | d :: rest, methods, c =>
    let head := locate o d methods c
    let tail := locateEach o rest methods head.2
    (Decode.first head.1 :: tail.1, tail.2)

end

end Moniker.Description
