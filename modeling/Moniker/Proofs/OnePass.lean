import Moniker.Resolver

/-!
# Reading in one pass

`Reader.perform` scans frames first and makes sense of them afterwards. Here a segment is resolved
while it is read: one position moves along the frames, goes back when a signature is replayed, and
the depth and the enclosing methods are put up and taken down by hand. What could go wrong on the
way is a fault: going back to a position that has not been reached, a difference below zero, a
depth that no machine word holds.

A pass is made for any `Factories`, the builders of structural types, which may refuse a shape,
raise a fault or change the compilation as they like. `Factories.own` are those of the compilation.
A segment calls for the segments inside it through a parameter, so `Pass.deepen` says how much of
the recursion is unfolded.
-/

namespace Moniker

/-- A request to a builder, and what it makes of the compilation, whether or not it faults. -/
abbrev Factory (α : Type) := Compilation → Except Fault α × Compilation

/-- What a compilation offers for building structural types. -/
structure Factories where
  array : SymbolId → UInt64 → Factory SymbolId
  pointer : SymbolId → Factory SymbolId
  construct : SymbolId → List SymbolId → Factory (Except Rejection SymbolId)
  tuple : List SymbolId → List (Option String) → List Location → Factory (Except Rejection SymbolId)
  anonymous : List SymbolId → List String → List Bool → List Location →
    Factory (Except Rejection SymbolId)

namespace Factory

/-- A builder that never faults. -/
def ofBuild (request : Compilation → α × Compilation) : Factory α :=
  fun c => (.ok (request c).1, (request c).2)

/-- A builder that leaves the compilation alone when it faults. -/
def ofTryBuild (request : Compilation → Except Fault (α × Compilation)) : Factory α :=
  fun c =>
    match request c with
    | .ok (a, c) => (.ok a, c)
    | .error fault => (.error fault, c)

/-- Puts the request. -/
def put (place : Place) (request : Factory α) : Decode α := do
  let scene ← get
  let (answer, compilation) := request scene.compilation
  set { scene with compilation := compilation }
  match answer with
  | .ok a => return a
  | .error fault => throw (.fault fault place)

end Factory

namespace Factories

/-- The builders of the compilation itself. -/
def own : Factories where
  array element rank := .ofBuild (·.arrayType element rank)
  pointer pointee := .ofBuild (·.pointerType pointee)
  construct definition arguments := .ofTryBuild (·.construct definition arguments)
  tuple types names locations := .ofBuild (·.tupleType types names locations)
  anonymous types names readOnly locations :=
    .ofBuild (·.anonymousType types names readOnly locations)

/-- Asks each definition for the type with these arguments. -/
def constructEach (f : Factories) (place : Place) (arguments : List SymbolId) :
    List SymbolId → Decode (List SymbolId × List String)
  | [] => return ([], [])
  | definition :: rest => do
    let answer ← (f.construct definition arguments).put place
    let (built, reasons) ← constructEach f place arguments rest
    match answer with
    | .ok s => return (s :: built, reasons)
    | .error rejection => return (built, rejection.reason :: reasons)

/-- A generic definition if there are no arguments, else the types constructed from the
definitions. -/
def constructed (f : Factories) (place : Place) (name : String) (definitions : List SymbolId)
    (arguments : Loan SymbolId) : Decode Resolved := do
  if arguments.presence.isAbsent || definitions.isEmpty then
    return Description.found .namedType name definitions
  let (built, reasons) ← f.constructEach place arguments.items definitions
  let detail := s!"cannot construct '{name}': " ++ "; ".intercalate reasons
  return Resolution.ofCandidates built (.rejected Category.namedType.codec detail)

end Factories

/-- The reader at another position. -/
def Reader.moved (r : Reader) (position : Nat) : Reader :=
  { r with place := { r.place with position := position } }

/-- A step that reads frames and makes sense of them at once. -/
abbrev Pass := ExceptT Halt (StateM (Reader × Scene))

namespace Pass

/-! ## The reader -/

def defect (d : Defect) : Pass α := throw (.defect d)

def fault (fault : Fault) : Pass α := do throw (.fault fault (← get).1.place)

/-- A step that leaves the reader alone. -/
def lift (step : Decode α) : Pass α := do
  let (r, scene) ← get
  let (outcome, scene) := step.run scene
  set (r, scene)
  match outcome with
  | .ok a => return a
  | .error halt => throw halt

def place : Pass Place := return (← get).1.place

def position : Pass Nat := return (← place).position

/-- Moves the reader. -/
def go (reader : Reader) : Pass Unit := modify fun state => (reader, state.2)

/-- A difference of machine words. -/
def minus (a b : Nat) : Pass Nat := if b ≤ a then pure (a - b) else fault .subOverflow

/-- How many frames are left. -/
def left : Pass Nat := do minus (← get).1.frames.length (← position)

/-- The position of the frame that was read last. -/
def last : Pass Nat := do minus (← position) 1

/-- Goes back to a position that has been reached before. -/
def rewind (position : Nat) : Pass Unit := do
  match (← get).1.rewind position with
  | .ok r => go r
  | .error e => fault e

def push (method : SymbolId) : Pass Unit := do go ((← get).1.pushMethod method)

def pop : Pass Unit := do go (← get).1.popMethod

def setDepth (depth : Nat) : Pass Unit := do
  let (r, _) ← get
  go { r with place := { r.place with depth := depth } }

/-- One segment further in. -/
def deeper : Pass Unit := do
  let depth := (← place).depth + 1
  if depth < UInt64.size then setDepth depth else fault .addOverflow

/-- One segment further out. -/
def shallower : Pass Unit := do setDepth (← minus (← place).depth 1)

/-- Runs a step that a defect does not halt. -/
def attempt (step : Pass α) : Pass (Slot α) :=
  tryCatch (.ok <$> step) fun
    | .defect d => return .error d
    | .fault fault place => throw (.fault fault place)

/-- Runs a step, then another one even if a defect has halted the first. -/
def afterwards (step : Pass α) (undo : Pass Unit) : Pass α := do
  let slot ← attempt step
  undo
  lift (Decode.ofSlot slot)

/-! ## Values -/

/-- The next frame. -/
def next : Pass Frame := do
  let (r, _) ← get
  match r.frames[r.place.position]? with
  | none => defect (.truncated r.place.position)
  | some frame =>
    go { r with place := r.place.forward 1 }
    return frame

/-- The content of the next frame, if it is of the wanted sort. -/
def expect (wanted : Frame.Content) (value? : Frame → Option α) : Pass α := do
  let frame ← next
  match value? frame with
  | some value => return value
  | none => defect (.unexpected wanted (← last) frame.content)

def kind : Pass Category := expect .kind fun | .kind category => some category | _ => none

def text : Pass (Option String) := expect .text fun | .text value => some value | _ => none

def bool : Pass Bool := expect .bool fun | .bool value => some value | _ => none

def int : Pass Int64 := expect .int fun | .int value => some value | _ => none

/-- A text that is never left out. -/
def name : Pass String := do
  match ← text with
  | some name => return name
  | none => defect (.missingName (← last))

/-- An integer that is not negative. -/
def count : Pass Nat := do
  let value ← int
  if value < 0 then defect (.negativeCount value (← last)) else return value.toInt.toNat

def pos : Pass Pos :=
  return ⟨UInt64.ofNat (← count), UInt64.ofNat (← count), UInt64.ofNat (← count)⟩

/-- A location as it was written. -/
def site : Pass Location := do
  match ← int with
  | 0 => return .nowhere
  | 1 => return .source (← name) ⟨← pos, ← pos⟩
  | other => defect (.locationKind other (← last))

/-- A location resolves if its file belongs to the compilation. -/
def location : Pass (Except Failure Location) := do
  lift (Decode.location (.ok (← site)))

/-! ## Arrays -/

/-- The header of an array: its presence has to admit the number of elements, and there have to be
as many frames left. -/
def header : Pass (Presence × Nat) := do
  let (presence, announced) ← expect .array fun
    | .array presence n => some (presence, n.toNat)
    | _ => none
  if !presence.admits announced then
    defect (.header presence announced (← last))
  let remaining ← left
  if remaining < announced then
    defect (.overlong (← last) announced remaining)
  return (presence, announced)

/-- Runs a step, and gives the buffer back if the step is halted. -/
def orGiveBack [Lends α] (loan : Loan α) (step : Pass β) : Pass β :=
  tryCatch step fun halt => do
    lift (Decode.giveBack loan)
    throw halt

/-- Runs a step while a buffer is on loan, and gives the buffer back however the step ends. -/
def during [Lends α] (loan : Loan α) (step : Pass β) : Pass β := do
  let b ← orGiveBack loan step
  lift (Decode.giveBack loan)
  return b

/-- The same for an array that may have failed, which leaves nothing on loan. -/
def duringEither [Lends α] (loan : Except Failure (Loan α)) (step : Pass β) : Pass β :=
  match loan with
  | .ok loan => during loan step
  | .error _ => step

/-- Reads so many items into a buffer. -/
def gather [Lends α] (item : Pass α) : Nat → Loan α → Pass (Loan α)
  | 0, loan => pure loan
  | n + 1, loan => do
    let a ← orGiveBack loan item
    gather item n (loan.push a)

/-- An array of plain values, in a buffer. -/
def listing [Lends α] (item : Pass α) : Pass (Loan α) := do
  let (presence, n) ← header
  let loan ← lift (Decode.borrow presence n)
  gather item n loan

/-- Reads so many elements, from the given index on, into a buffer. All of them are read, and the
first failure is the outcome. -/
def collect [Lends α] (item : Pass (Except Failure α)) (index : Nat) :
    Nat → Loan α → Option Failure → Pass (Except Failure (Loan α))
  | 0, loan, none => return .ok loan
  | 0, loan, some reason => do
    lift (Decode.giveBack loan)
    return .error reason
  | n + 1, loan, failure => do
    match ← orGiveBack loan item with
    | .ok a => collect item (index + 1) n (loan.push a) failure
    | .error reason =>
      collect item (index + 1) n loan (failure <|> some (.element index reason))

/-- An array whose elements may fail, in a buffer. -/
def elements [Lends α] (item : Pass (Except Failure α)) : Pass (Except Failure (Loan α)) := do
  let (presence, n) ← header
  let loan ← lift (Decode.borrow presence n)
  collect item 0 n loan none

/-- An array of segments. -/
def keys (nested : Pass Resolved) : Pass (Except Failure (Loan SymbolId)) :=
  elements (Decode.first <$> nested)

/-! ## Segments -/

open Decode (query require)
open Description (Replay found enclosing)

/-- Goes back to where a signature begins and reads it inside a method. -/
def reread (start : Place) (method : SymbolId) (signature : Pass α) : Pass α := do
  rewind start.position
  push method
  afterwards signature pop

/-- Replays a signature inside every candidate, from the place where it begins. -/
def replay (start : Place) (signature : Pass (Except Failure (Loan SymbolId))) :
    List SymbolId → Replay → Pass Replay
  | [], sofar => return sofar
  | candidate :: rest, sofar => do
    match ← reread start candidate signature with
    | .error reason =>
      replay start signature rest { sofar with failure := sofar.failure <|> some reason }
    | .ok types =>
      let fits ← during types do
        return (← lift (query (start.forward 1) (·.parameterTypes candidate))) == types.items
      replay start signature rest
        (if fits then { sofar with fitting := sofar.fitting ++ [candidate] } else sofar)

/-- The methods whose parameters have the types that the signature gives. Without candidates it is
stepped over. -/
def replayAll (signature : Pass (Except Failure (Loan SymbolId))) (candidates : List SymbolId) :
    Pass Replay := do
  let start ← place
  let outcome ← replay start signature candidates {}
  if candidates.isEmpty then
    match ← signature with
    | .ok types => lift (Decode.giveBack types)
    | .error _ => pure ()
  return outcome

/-- The body of a segment, given the place where it begins. A fault that a query or a builder
raises is reported there. -/
def body (f : Factories) (o : ResolveOptions) (nested : Pass Resolved) (start : Place) :
    Category → Pass Resolved
  | .nameSpace => do
    if ← bool then
      return .ok (.symbol (← get).2.compilation.global)
    let container ← nested
    let name ← name
    lift <| require .nameSpace "containingNamespace" container fun container => do
      return found .nameSpace name
        (← query start (·.membersNamed o .nameSpace container.candidates name))
  | .namedType => do
    let container ← nested
    let name ← name
    let arity ← count
    let arguments ← keys nested
    duringEither arguments <| lift <|
      require .namedType "containingSymbol" container fun container =>
        require .namedType "typeArguments" arguments fun arguments => do
          let definitions ← query start (·.typesNamed o container.candidates name arity)
          f.constructed start name definitions arguments
  | .arrayType => do
    let element ← nested
    let rank ← count
    lift <| require .arrayType "elementType" element fun element => do
      return .ok (← element.mapM fun s => (f.array s (UInt64.ofNat rank)).put start)
  | .pointerType => do
    let pointee ← nested
    lift <| require .pointerType "pointedAtType" pointee fun pointee => do
      return .ok (← pointee.mapM fun s => (f.pointer s).put start)
  | .tupleType => do
    let types ← keys nested
    duringEither types do
      let names ← listing text
      during names do
        let locations ← elements location
        duringEither locations <| lift <|
          require .tupleType "elementTypes" types fun types =>
            require .tupleType "elementLocations" locations fun locations =>
              Fallback.fail.rebuild Category.tupleType.codec types.presence
                ((f.tuple types.items names.items locations.items).put start)
  | .anonymousType => do
    let types ← keys nested
    duringEither types do
      let names ← listing text
      during names do
        let readOnly ← listing bool
        during readOnly do
          let locations ← elements location
          duringEither locations <| lift <|
            require .anonymousType "propertyTypes" types fun types =>
              require .anonymousType "propertyLocations" locations fun locations =>
                Fallback.universal.rebuild Category.anonymousType.codec types.presence
                  ((f.anonymous types.items (names.items.map (·.getD "")) readOnly.items
                    locations.items).put start)
  | .typeParameter => do
    let owner ← nested
    let name ← name
    lift <| require .typeParameter "owner" owner fun owner => do
      return found .typeParameter name
        (← query start fun c => c.named o c.typeParameters owner.candidates name)
  | .typeParameterOrdinal => do
    let depth ← count
    let ordinal ← count
    lift (enclosing (← place) depth ordinal)
  | .field => do
    let container ← nested
    let name ← name
    lift <| require .field "containingType" container fun container => do
      return found .field name (← query start (·.membersNamed o .field container.candidates name))
  | .property => do
    let container ← nested
    let name ← name
    let types ← keys nested
    duringEither types <| lift <|
      require .property "containingType" container fun container =>
        require .property "parameterTypes" types fun types => do
          return found .property name
            (← query start (·.propertiesNamed o container.candidates name types.items))
  | .method => do
    let container ← nested
    let name ← name
    let arity ← count
    let candidates ← lift <|
      match container with
      | .ok container => query start (·.methodsNamed o container.candidates name arity)
      | .error _ => pure []
    let outcome ← replayAll (keys nested) candidates
    lift <| require .method "containingType" container fun _ => do
      match outcome.fitting, outcome.failure with
      | [], some reason => return .error (.field Category.method.codec "parameterTypes" reason)
      | fitting, _ => return found .method name fitting
  | .parameter => do
    let owner ← nested
    let name ← name
    lift <| require .parameter "containingSymbol" owner fun owner => do
      return found .parameter name
        (← query start fun c => c.named o c.parameters owner.candidates name)
  | .localVariable => do
    let owner ← nested
    let name ← name
    let ordinal ← count
    lift <| require .localVariable "containingMethod" owner fun owner => do
      return Resolution.ofCandidates
        (← query start (·.localsNumbered o owner.candidates name ordinal))
        (.notFound Category.localVariable.codec s!"{name}#{ordinal}")

/-- Runs a step one segment further in. -/
def inside (step : Place → Pass α) : Pass α := do
  deeper
  afterwards (do step (← place)) shallower

/-- A segment after its kind frame. -/
def opened (f : Factories) (o : ResolveOptions) (nested : Pass Resolved) (category : Category) :
    Pass Resolved := do
  lift (Decode.emit (.entered category (← position)))
  let resolved ← inside fun start => body f o nested start category
  if let .error reason := resolved then
    lift (Decode.emit (.failed category reason))
  return resolved

/-- A segment, when `nested` reads those inside it. -/
def segment (f : Factories) (o : ResolveOptions) (nested : Pass Resolved) : Pass Resolved := do
  if o.cancelled then
    defect .cancelled
  if o.maxDepth.toNat ≤ (← place).depth then
    defect (.tooDeep o.maxDepth.toNat)
  opened f o nested (← kind)

/-- A segment whose recursion is unfolded so many times; below that, `other` is run. -/
def deepen (f : Factories) (o : ResolveOptions) (other : Pass Resolved) : Nat → Pass Resolved
  | 0 => other
  | n + 1 => segment f o (deepen f o other n)

/-- A segment. Every segment inside it begins further on, so there is nothing left to read when
the recursion has been unfolded once more than there are frames. -/
def key (f : Factories) (o : ResolveOptions) : Pass Resolved := do
  deepen f o (fault .endless) ((← get).1.frames.length + 1)

/-- The whole key, after which no frames may be left. -/
def root (f : Factories) (o : ResolveOptions) : Pass Resolved := do
  let resolved ← key f o
  if !(← get).1.isAtEnd then
    defect (.trailing (← left) (← position))
  return resolved

/-! ## Runs -/

theorem run_bind (step : Pass α) (next : α → Pass β) (state : Reader × Scene) :
    (step >>= next).run state =
      match step.run state with
      | (.ok a, after) => (next a).run after
      | (.error halt, after) => (.error halt, after) := by
  simp only [ExceptT.run_bind]
  show StateT.bind _ _ _ = _
  simp only [StateT.bind]
  cases hstep : step.run state with
  | mk outcome after => cases outcome <;> rfl

theorem run_get (next : Reader × Scene → Pass α) (state : Reader × Scene) :
    (get >>= next).run state = (next state).run state := rfl

theorem run_place (next : Place → Pass α) (r : Reader) (scene : Scene) :
    (place >>= next).run (r, scene) = (next r.place).run (r, scene) := rfl

theorem run_position (next : Nat → Pass α) (r : Reader) (scene : Scene) :
    (position >>= next).run (r, scene) = (next r.place.position).run (r, scene) := rfl

theorem run_key (f : Factories) (o : ResolveOptions) (r : Reader) (scene : Scene) :
    (key f o).run (r, scene) =
      (deepen f o (fault .endless) (r.frames.length + 1)).run (r, scene) :=
  run_get _ _

theorem run_lift (step : Decode α) (r : Reader) (scene : Scene) :
    (lift step).run (r, scene) = ((step.run scene).1, r, (step.run scene).2) := by
  have hget : (get : Pass (Reader × Scene)).run (r, scene) = (.ok (r, scene), r, scene) := rfl
  unfold lift
  rw [run_bind, hget]
  dsimp only
  rcases step.run scene with ⟨outcome, after⟩
  cases outcome <;> rfl

theorem run_next (r : Reader) (scene : Scene) :
    next.run (r, scene) =
      match r.frames[r.place.position]? with
      | none => (.error (.defect (.truncated r.place.position)), r, scene)
      | some frame => (.ok frame, { r with place := r.place.forward 1 }, scene) := by
  have hget : (get : Pass (Reader × Scene)).run (r, scene) = (.ok (r, scene), r, scene) := rfl
  unfold next
  rw [run_bind, hget]
  dsimp only
  cases r.frames[r.place.position]? <;> rfl

theorem run_minus (a b : Nat) (r : Reader) (scene : Scene) :
    (minus a b).run (r, scene) =
      if b ≤ a then (.ok (a - b), r, scene) else (.error (.fault .subOverflow r.place), r,
        scene) := by
  unfold minus
  split <;> rfl

theorem run_last (r : Reader) (scene : Scene) :
    last.run (r, scene) = (minus r.place.position 1).run (r, scene) := rfl

theorem run_left (r : Reader) (scene : Scene) :
    left.run (r, scene) = (minus r.frames.length r.place.position).run (r, scene) := rfl

theorem run_orGiveBack [Lends α] (loan : Loan α) (step : Pass β) (state : Reader × Scene) :
    (orGiveBack loan step).run state =
      match step.run state with
      | (.ok b, after) => (.ok b, after)
      | (.error halt, r, scene) =>
        (.error halt, r, { scene with arena := scene.arena.release loan }) := by
  unfold orGiveBack ExceptT.run
  simp only [tryCatch, tryCatchThe, MonadExceptOf.tryCatch, ExceptT.tryCatch, ExceptT.mk,
    Bind.bind, StateT.bind]
  cases hstep : step state with
  | mk outcome after => cases outcome <;> rfl

theorem run_afterwards (step : Pass α) (undo : Pass Unit) (state : Reader × Scene) :
    (afterwards step undo).run state =
      match step.run state with
      | (.ok a, after) => (undo >>= fun _ => pure a : Pass α).run after
      | (.error (.defect d), after) => (undo >>= fun _ => defect d : Pass α).run after
      | (.error (.fault fault place), after) => (.error (.fault fault place), after) := by
  have hattempt : (attempt step).run state =
      match step.run state with
      | (.ok a, after) => (.ok (.ok a), after)
      | (.error (.defect d), after) => (.ok (.error d), after)
      | (.error (.fault fault place), after) => (.error (.fault fault place), after) := by
    unfold attempt ExceptT.run
    simp only [tryCatch, tryCatchThe, MonadExceptOf.tryCatch, ExceptT.tryCatch, ExceptT.mk,
      Bind.bind, StateT.bind, Functor.map, ExceptT.map]
    cases hstep : step state with
    | mk outcome after =>
      cases outcome with
      | ok a => rfl
      | error halt => cases halt <;> rfl
  unfold afterwards
  rw [run_bind, hattempt]
  rcases step.run state with ⟨outcome, after⟩
  cases outcome with
  | ok a => rfl
  | error halt => cases halt <;> rfl

theorem run_rewind {position : Nat} {r : Reader} (h : position ≤ r.place.position) (scene : Scene) :
    (rewind position).run (r, scene) = (.ok (), r.moved position, scene) := by
  have hget : (get : Pass (Reader × Scene)).run (r, scene) = (.ok (r, scene), r, scene) := rfl
  unfold rewind
  rw [run_bind, hget]
  dsimp only
  rw [Reader.rewind, if_pos h]
  rfl

/-- A signature that is read again ends as it does where it begins, inside the method. -/
theorem run_reread {start : Place} {method : SymbolId} {signature : Pass α} {r : Reader}
    (h : start.position ≤ r.place.position) (scene : Scene) :
    (reread start method signature).run (r, scene) =
      match signature.run ((r.moved start.position).pushMethod method, scene) with
      | (.ok a, after, scene) => (.ok a, after.popMethod, scene)
      | (.error (.defect d), after, scene) => (.error (.defect d), after.popMethod, scene)
      | (.error (.fault fault place), after) => (.error (.fault fault place), after) := by
  unfold reread
  rw [run_bind, run_rewind h]
  dsimp only
  have hpush (r : Reader) : (push method).run (r, scene) = (.ok (), r.pushMethod method, scene) :=
    rfl
  rw [run_bind, hpush]
  dsimp only
  rw [run_afterwards]
  generalize signature.run _ = run
  rcases run with ⟨outcome, after, scene⟩
  cases outcome with
  | ok a => rfl
  | error halt => cases halt <;> rfl

end Pass

/-- Resolves a key in one pass, with the arena at hand. -/
def Key.resolveThrough (f : Factories) (o : ResolveOptions) (k : Key) (scene : Scene) :
    Except Halt Resolved × Scene :=
  match checkVersion k.version with
  | .error defect => (.error (.defect defect), scene)
  | .ok () =>
    let (value, _, after) := (Pass.root f o).run ({ frames := k.frames }, scene)
    match k.outcomeEvent? value with
    | some event => (value, { after with events := after.events.push event })
    | none => (value, after)

end Moniker
