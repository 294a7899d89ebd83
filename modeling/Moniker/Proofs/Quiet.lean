import Moniker.Proofs.OnePass
import Moniker.Proofs.Steps

/-!
# Quiet steps

A step is quiet if no defect of the key halts it and it has no use for the arena. All the looking
up and building between the reading of a segment's frames is quiet, whoever builds: a compilation
that faults or refuses does so without a look at the buffers.
-/

namespace Moniker.Decode

/-- No defect halts the step, and the arena is nothing to it. -/
structure Quiet (step : Decode α) : Prop where
  spotless : ∀ scene d, (step.run scene).1 ≠ .error (.defect d)
  blind : ∀ (scene : Scene) (arena : Arena), step.run { scene with arena := arena } =
    ((step.run scene).1, { (step.run scene).2 with arena := arena })

namespace Quiet

variable {α β : Type} {step : Decode α}

theorem done (a : α) : Quiet (pure a) := ⟨fun _ _ h => (nomatch h), fun _ _ => rfl⟩

theorem faulted (fault : Fault) (place : Place) : Quiet (throw (.fault fault place) : Decode α) :=
  ⟨fun _ _ h => (nomatch h), fun _ _ => rfl⟩

/-- What a quiet step leaves in the arena is what was there. -/
theorem arena_eq (h : Quiet step) (scene : Scene) : (step.run scene).2.arena = scene.arena := by
  have hblind := h.blind scene scene.arena
  exact congrArg (fun run => run.2.arena) hblind

theorem bind {next : α → Decode β} (h : Quiet step) (hnext : ∀ a, Quiet (next a)) :
    Quiet (step >>= next) := by
  constructor
  · intro scene d
    rw [run_bind]
    have hstep := h.spotless scene d
    rcases hrun : step.run scene with ⟨outcome, after⟩
    rw [hrun] at hstep
    cases outcome with
    | ok a => exact (hnext a).spotless after d
    | error halt => exact fun heq => hstep (congrArg Except.error (Except.error.inj heq))
  · intro scene arena
    rw [run_bind, run_bind, h.blind]
    rcases step.run scene with ⟨outcome, after⟩
    cases outcome with
    | ok a => exact (hnext a).blind after arena
    | error halt => rfl

/-- A step that looks at the scene, but not at the arena. -/
theorem look {next : Scene → Decode α} (h : ∀ scene, Quiet (next scene))
    (hnext : ∀ (scene : Scene) (arena : Arena), next { scene with arena := arena } = next scene) :
    Quiet (get >>= next) := by
  refine ⟨fun scene => (h scene).spotless scene, fun scene arena => ?_⟩
  show (next { scene with arena := arena }).run _ = (((next scene).run scene).1, _)
  rw [hnext]
  exact (h scene).blind scene arena

theorem emit (event : Event) : Quiet (Decode.emit event) :=
  ⟨fun _ _ h => (nomatch h), fun _ _ => rfl⟩

theorem query (place : Place) (question : Compilation → Except Fault α) :
    Quiet (Decode.query place question) := by
  refine look (fun scene => ?_) fun _ _ => rfl
  cases question scene.compilation with
  | ok a => exact done a
  | error fault => exact faulted fault place

theorem require {category : Category} {part : String} {resolved : Except Failure α}
    {onward : α → Decode Resolved} (h : ∀ a, Quiet (onward a)) :
    Quiet (Decode.require category part resolved onward) := by
  cases resolved with
  | ok a => exact h a
  | error cause => exact done _

theorem location (l : Location) : Quiet (Decode.location (.ok l)) := by
  cases l with
  | nowhere => exact done _
  | source path span =>
    have hknown : Quiet (get >>= fun scene : Scene =>
        if scene.compilation.containsFile path then pure (.ok (.source path span))
        else pure (.error (.notInCompilation path)) : Decode (Except Failure Location)) := by
      refine look (fun scene => ?_) fun _ _ => rfl
      split <;> exact done _
    exact hknown

theorem enclosing (place : Place) (depth ordinal : Nat) :
    Quiet (Description.enclosing place depth ordinal) := by
  unfold Description.enclosing
  dsimp only
  split
  · exact done _
  · refine (query _ _).bind fun parameters => ?_
    split <;> exact done _

theorem mapM {f : SymbolId → Decode SymbolId} (h : ∀ s, Quiet (f s)) (r : Resolution SymbolId) :
    Quiet (r.mapM f) := by
  have hlist (several : List SymbolId) : Quiet (several.mapM f) := by
    induction several with
    | nil => exact done []
    | cons s rest ih =>
      rw [List.mapM_cons]
      exact (h s).bind fun _ => ih.bind fun _ => done _
  cases r with
  | symbol s => exact (h s).bind fun _ => done _
  | ambiguous several => exact (hlist several).bind fun _ => done _

/-! ## Building -/

theorem put (place : Place) (request : Factory α) : Quiet (request.put place) := by
  have hrun (scene : Scene) : (request.put place).run scene =
      ((request scene.compilation).1.mapError (Halt.fault · place),
        { scene with compilation := (request scene.compilation).2 }) := by
    have hget : (get : Decode Scene).run scene = (.ok scene, scene) := rfl
    unfold Factory.put
    rw [run_bind, hget]
    dsimp only
    rcases request scene.compilation with ⟨answer, compilation⟩
    cases answer <;> rfl
  constructor
  · intro scene d
    rw [hrun]
    cases (request scene.compilation).1 <;> exact fun h => nomatch h
  · intro scene arena
    rw [hrun, hrun]

theorem build (request : Compilation → α × Compilation) : Quiet (Decode.build request) :=
  put {} (.ofBuild request)

theorem constructEach (f : Factories) (place : Place) (arguments definitions : List SymbolId) :
    Quiet (f.constructEach place arguments definitions) := by
  induction definitions with
  | nil => exact done _
  | cons definition rest ih =>
    refine (put _ _).bind fun answer => ih.bind fun built => ?_
    cases answer <;> exact done _

theorem constructed (f : Factories) (place : Place) (name : String) (definitions : List SymbolId)
    (arguments : Loan SymbolId) : Quiet (f.constructed place name definitions arguments) := by
  unfold Factories.constructed
  split
  · exact done _
  · exact (constructEach _ _ _ _).bind fun _ => done _

theorem rebuild {fallback : Fallback} {codec : String} {presence : Presence}
    {request : Decode (Except Rejection SymbolId)} (h : Quiet request) :
    Quiet (fallback.rebuild codec presence request) := by
  have houtcome (detail : String) : Quiet (fallback.outcome codec detail) := by
    cases fallback with
    | universal => exact look (fun _ => done _) fun _ _ => rfl
    | fail => exact done _
  unfold Fallback.rebuild
  split
  · exact (emit _).bind fun _ => houtcome _
  · refine h.bind fun answer => ?_
    cases answer with
    | ok s => exact done _
    | error rejection => exact (emit _).bind fun _ => houtcome _

end Quiet
end Moniker.Decode
