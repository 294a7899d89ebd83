import Moniker.Key
import Moniker.Reader

/-!
# Resolving keys

A key resolves against a compilation if its version is the supported one and its frames are
exactly one segment. A resolver works through many keys with one arena, so that the buffers
of one key serve the next.
-/

namespace Moniker

namespace Key

/-- What is recorded about the outcome of resolving a key. -/
def outcomeEvent? (k : Key) : Except Halt Resolved → Option Event
  | .ok (.ok (.ambiguous candidates)) => some (.ambiguous k.render candidates.length)
  | .ok (.ok (.symbol _)) => none
  | .ok (.error reason) => some (.unresolved k.render reason)
  | .error (.defect defect) => some (.unusable k.render defect)
  | .error (.fault _ _) => none

/-- Resolves a key with the arena at hand. -/
def resolveIn (o : ResolveOptions) (k : Key) (scene : Scene) : Except Halt Resolved × Scene :=
  match checkVersion k.version with
  | .error defect => (.error (.defect defect), scene)
  | .ok () =>
    let outcome := ({ frames := k.frames } : Reader).readRoot o scene
    match k.outcomeEvent? outcome.value with
    | some event =>
      (outcome.value, { outcome.scene with events := outcome.scene.events.push event })
    | none => (outcome.value, outcome.scene)

/-- Resolves a key with an arena of its own, which leaves the arena at hand alone. -/
def resolve (o : ResolveOptions) (k : Key) (scene : Scene) : Except Halt Resolved × Scene :=
  let (outcome, after) := k.resolveIn o { scene with arena := {} }
  (outcome, { after with arena := scene.arena })

end Key

/-- Options and an arena for many keys. -/
structure Resolver where
  options : ResolveOptions := {}
  arena : Arena := {}

namespace Resolver

/-- Resolves keys one after the other. A fault ends the run. -/
def resolveAll (r : Resolver) (keys : List Key) (scene : Scene) :
    Except Fault (List (Except Defect Resolved)) × Resolver × Scene :=
  go keys { scene with arena := r.arena }
where
  go : List Key → Scene → Except Fault (List (Except Defect Resolved)) × Resolver × Scene
    | [], now => (.ok [], { r with arena := now.arena }, { now with arena := scene.arena })
    | k :: rest, now =>
      match k.resolveIn r.options now with
      | (.error (.fault fault _), now) =>
        (.error fault, { r with arena := now.arena }, { now with arena := scene.arena })
      | (.error (.defect defect), now) => step (.error defect) (go rest now)
      | (.ok resolved, now) => step (.ok resolved) (go rest now)
  step (outcome : Except Defect Resolved)
      (later : Except Fault (List (Except Defect Resolved)) × Resolver × Scene) :
      Except Fault (List (Except Defect Resolved)) × Resolver × Scene :=
    (later.1.map (outcome :: ·), later.2)

end Resolver
end Moniker
