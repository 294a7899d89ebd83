import Moniker.Proofs.Programs
import Moniker.Proofs.Rerunning
import Moniker.Proofs.Resolving

/-!
# Resolving is conservative

However resolving a key ends, the compilation it leaves is the one it found with more structural
types: whatever could be asked about a symbol before is answered as before. Resolving the key again
comes to the same outcome, symbol by symbol, and issues nothing more. Both follow from how steps
are repeated (`Description.resolve_steady`), which holds of keys with defects, too.
-/

namespace Moniker

/-- A reader takes over whatever comes of making sense of what it scanned. -/
theorem Reader.perform_run {α β : Type} (r : Reader) (step : Scanner α)
    (meaning : α → Scan → Decode β) (scene : Scene) :
    (r.perform step meaning scene).value =
        ((meaning (r.scan step).1 (r.scan step).2.2).run scene).1 ∧
      (r.perform step meaning scene).scene =
        ((meaning (r.scan step).1 (r.scan step).2.2).run scene).2 := by
  unfold Reader.perform
  dsimp only
  rcases (meaning (r.scan step).1 (r.scan step).2.2).run scene with ⟨outcome, after⟩
  cases outcome with
  | ok b => exact ⟨rfl, rfl⟩
  | error halt => cases halt <;> exact ⟨rfl, rfl⟩

namespace Key

open Decode

variable {o : ResolveOptions} {k : Key} {scene : Scene}

theorem steady_step (o : ResolveOptions) (k : Key) : Steady id (k.step o) (k.step o) := by
  refine (Steady.segment (Description.resolve_steady o _)).andThen fun resolved => ?_
  split
  · exact Steady.done rfl
  · exact Steady.halted _

/-- Resolving a key runs its step, and records what came of it. -/
theorem resolveIn_eq_step (hversion : k.version = currentVersion) (o : ResolveOptions)
    (scene : Scene) :
    (k.resolveIn o scene).1 = ((k.step o).run scene).1 ∧
      (k.resolveIn o scene).2.compilation = ((k.step o).run scene).2.compilation ∧
      (k.resolveIn o scene).2.arena = ((k.step o).run scene).2.arena := by
  have hread : (({ frames := k.frames } : Reader).readRoot o scene).value =
        ((k.step o).run scene).1 ∧
      (({ frames := k.frames } : Reader).readRoot o scene).scene = ((k.step o).run scene).2 :=
    Reader.perform_run _ _ _ scene
  simp only [resolveIn, checkVersion, hversion, if_true]
  cases k.outcomeEvent? (({ frames := k.frames } : Reader).readRoot o scene).value <;>
    exact ⟨hread.1, by rw [← hread.2], by rw [← hread.2]⟩

/-- Whatever comes of a key, it leads to a later state of the compilation without a fault, and
comes to the same in every state after that. -/
theorem resolveIn_again (o : ResolveOptions) (k : Key) (hsound : scene.Sound) :
    Faultless (k.resolveIn o scene).1 ∧
    Compilation.Leads scene.compilation (k.resolveIn o scene).2.compilation ∧
    (k.resolveIn o scene).2.Sound ∧
    ∀ scene' : Scene, scene'.arena.Clean →
      (k.resolveIn o scene).2.compilation.Grows scene'.compilation →
        (k.resolveIn o scene').1 = (k.resolveIn o scene).1 ∧
        scene'.compilation.Recounts (k.resolveIn o scene').2.compilation := by
  by_cases hversion : k.version = currentVersion
  · obtain ⟨houtcome, hcompilation, harena⟩ := resolveIn_eq_step hversion o scene
    obtain ⟨outcome, after, hrun, hsound', -, -⟩ := step_ends o k _ scene hsound rfl
    obtain ⟨hleads, -, hagain⟩ := steady_step o k scene hsound.clean
    have hfaultless : Faultless ((k.step o).run scene).1 := by
      rw [hrun]
      cases outcome <;> exact fun _ _ h => by cases h
    rw [houtcome, hcompilation]
    refine ⟨hfaultless, hleads, ⟨?_, ?_⟩, fun scene' hclean' hgrows => ?_⟩
    · rw [hcompilation, hrun]
      exact hsound'.closed
    · rw [harena, hrun]
      exact hsound'.clean
    · obtain ⟨hsame, hrecounts, -⟩ := hagain hfaultless scene' hclean' hgrows
      obtain ⟨houtcome', hcompilation', -⟩ := resolveIn_eq_step hversion o scene'
      rw [houtcome', hcompilation']
      refine ⟨?_, hrecounts⟩
      simpa using hsame
  · have hrefused (scene : Scene) : k.resolveIn o scene =
        (.error (.defect (.version k.version currentVersion)), scene) := by
      simp only [resolveIn, checkVersion, hversion, if_false]
    simp only [hrefused]
    refine ⟨fun _ _ h => ?_, .refl _, hsound, fun _ _ _ => ⟨trivial, .refl _⟩⟩
    cases h

end Key

namespace Compilation

/-- The compilations that requests for issued symbols and resolving keys lead to. -/
inductive Reachable : Compilation → Prop
  | made {c : Compilation} (hmade : c.Made fun t r => r.Issued t) : Reachable c
  | request {c c' : Compilation} {r : TypeRequest} (h : Reachable c)
    (hissued : ∀ s ∈ r.symbols, c.Issued s) (hrun : r.run c = .ok c') : Reachable c'
  | resolved {scene : Scene} (h : Reachable scene.compilation) (hclean : scene.arena.Clean)
    (o : ResolveOptions) (k : Key) : Reachable (k.resolveIn o scene).2.compilation

theorem Reachable.closed {c : Compilation} (h : c.Reachable) : c.Closed := by
  induction h with
  | made hmade => exact hmade.closed
  | request _ hissued hrun ih =>
    obtain ⟨n, hrun'⟩ := TypeRequest.run_eq _ hissued
    rw [hrun', Except.ok.injEq] at hrun
    obtain ⟨hgrows, hclosed⟩ := TypeRequest.after_closed _ ih.table hissued
    exact hrun ▸ ⟨hclosed, hgrows.issued ih.global, hgrows.issued ih.universal⟩
  | resolved _ hclean o k ih =>
    obtain ⟨-, -, hsound, -⟩ := k.resolveIn_again o ⟨ih, hclean⟩
    exact hsound.closed

/-- Every query about the symbol has the same answer in both compilations. -/
structure SameAnswers (c c' : Compilation) (s : SymbolId) : Prop where
  kind : c'.kind s = c.kind s
  name : c'.name s = c.name s
  container : c'.container s = c.container s
  members : c'.members s = c.members s
  typeOf : c'.typeOf s = c.typeOf s
  typeParameters : c'.typeParameters s = c.typeParameters s
  typeArguments : c'.typeArguments s = c.typeArguments s
  definition : c'.definition s = c.definition s
  isDefinition : c'.isDefinition s = c.isDefinition s
  parameters : c'.parameters s = c.parameters s
  isReadOnly : c'.isReadOnly s = c.isReadOnly s
  locations : c'.locations s = c.locations s
  firstLocation : c'.firstLocation s = c.firstLocation s
  rank : c'.rank s = c.rank s

/-- Queries look at the entry of a symbol, which stays what it is. -/
theorem Grows.sameAnswers {c c' : Compilation} (h : c.Grows c') {s : SymbolId}
    (hs : c.Issued s) : SameAnswers c c' s := by
  have hget : c'.get s = c.get s := by rw [get_eq (h.issued hs), get_eq hs, h.entry hs]
  constructor <;>
    simp only [kind, name, container, members, typeOf, typeParameters, typeArguments, definition,
      isDefinition, parameters, isReadOnly, locations, firstLocation, rank, hget,
      h.hiddenContainers, h.hiddenTypes]

end Compilation

/-- What a way to resolve a key makes of a scene: it does not fault, leaves all that could be asked
before as it was, and comes to the same when it is done again, without issuing more symbols. -/
structure Conservative (run : Scene → Except Halt Resolved × Scene) (scene : Scene) : Prop where
  faultless : Decode.Faultless (run scene).1
  issued : ∀ s, scene.compilation.Issued s → (run scene).2.compilation.Issued s
  answers : ∀ s, scene.compilation.Issued s →
    scene.compilation.SameAnswers (run scene).2.compilation s
  files : (run scene).2.compilation.files = scene.compilation.files
  global : (run scene).2.compilation.global = scene.compilation.global
  universal : (run scene).2.compilation.universal = scene.compilation.universal
  again : ∀ later : Scene, later.compilation = (run scene).2.compilation → later.arena.Clean →
    (run later).1 = (run scene).1 ∧ (run later).2.compilation.size = later.compilation.size

namespace Key

/-- Resolving a key, whatever it is and whatever comes of it, adds structural types to the
compilation and changes nothing else, and resolving it again comes to the same. -/
theorem resolve_conservative {scene : Scene} (hreachable : scene.compilation.Reachable)
    (o : ResolveOptions) (k : Key) :
    Conservative (k.resolve o) scene ∧
      (scene.arena.Clean → Conservative (k.resolveIn o) scene) := by
  have hin (scene : Scene) (hsound : scene.Sound) : Conservative (k.resolveIn o) scene := by
    obtain ⟨hfaultless, hleads, -, hagain⟩ := k.resolveIn_again o hsound
    have hgrows := hleads.grows
    refine ⟨hfaultless, fun s hs => hgrows.issued hs, fun s hs => hgrows.sameAnswers hs,
      hgrows.files, hgrows.global, hgrows.universal, fun later hlater hclean => ?_⟩
    obtain ⟨hsame, hrecounts⟩ := hagain later hclean (hlater ▸ .refl _)
    exact ⟨hsame, hrecounts.size_eq⟩
  refine ⟨?_, fun hclean => hin scene ⟨hreachable.closed, hclean⟩⟩
  -- a key that is resolved by itself has an arena of its own, which no one has used before
  have hown := hin { scene with arena := {} } ⟨hreachable.closed, Arena.clean_empty⟩
  exact ⟨hown.faultless, hown.issued, hown.answers, hown.files, hown.global, hown.universal,
    fun later hlater _ => hown.again { later with arena := {} } hlater Arena.clean_empty⟩

/-- The key of an array of rank two builds its type once, in a compilation that has none. -/
theorem resolve_conservative_array :
    let k := ofFrames [.kind .arrayType, .kind .namedType, .kind .nameSpace, .bool true,
      .text (some "object"), .int 0, .array .absent 0, .int 2]
    let scene : Scene := { compilation := Draft.empty.finish }
    Conservative (k.resolve {}) scene ∧ Conservative (k.resolveIn {}) scene ∧
      (k.resolve {} scene).1 = .ok (.ok (.symbol ⟨5⟩)) ∧
      scene.compilation.size = 5 ∧ (k.resolve {} scene).2.compilation.size = 6 := by
  intro k scene
  obtain ⟨hresolve, hresolveIn⟩ :=
    resolve_conservative (show scene.compilation.Reachable from .made (.finish .empty)) {} k
  exact ⟨hresolve, hresolveIn Arena.clean_empty, by decide, by decide, by decide⟩

end Key
end Moniker
