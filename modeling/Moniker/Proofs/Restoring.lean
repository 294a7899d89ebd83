import Moniker.Proofs.Returning

/-!
# Readers after errors

Reading a segment in one pass counts the depth up and down by hand, goes inside the signatures of
methods and out again, and goes back to where a signature begins for each candidate. A defect may
end the read anywhere in between. However it ends, the reader has the depth and the methods it had,
and it stands no further back than it did and no further than the last frame. Nothing keeps it from
reading on (`Reader.steps_restore`).
-/

namespace Moniker

namespace Reader

open Pass

/-- What a reader is asked for: a segment, or an array of segments. -/
inductive Call where
  | key (o : ResolveOptions)
  | keys (o : ResolveOptions)

/-- What it hands out. -/
inductive Returned where
  | key (resolved : Resolved)
  | keys (lent : Except Failure (Loan SymbolId))

/-- What comes of a pass that starts with the reader. -/
def Outcome.ofPass {α : Type} (pass : Pass α) (r : Reader) (scene : Scene) : Outcome α :=
  ⟨(pass.run (r, scene)).1, (pass.run (r, scene)).2.1, (pass.run (r, scene)).2.2⟩

namespace Call

/-- Makes the call in one pass, which adjusts the reader by hand. -/
def run (r : Reader) (scene : Scene) : Call → Outcome Returned
  | key o => (Outcome.ofPass (Pass.key .own o) r scene).map .key
  | keys o => (Outcome.ofPass (Pass.keys (Pass.key .own o)) r scene).map .keys

/-- Makes the call by scanning first and resolving afterwards. -/
def read (r : Reader) (scene : Scene) : Call → Outcome Returned
  | key o => (r.readKey o scene).map .key
  | keys o => (r.readKeys o scene).map .keys

end Call

/-- One of the calls that are made of a reader: the state that it found, and what came of it. -/
structure Step where
  call : Call
  reader : Reader
  scene : Scene
  outcome : Outcome Returned

/-- Makes one call after the other, whatever came of those before. Before each call the arena
changes in the given way, as the buffers that have been handed out come back. -/
def steps (r : Reader) (scene : Scene) : List (Call × (Arena → Arena)) → List Step
  | [] => []
  | (call, meanwhile) :: rest =>
    let scene := { scene with arena := meanwhile scene.arena }
    let outcome := call.run r scene
    ⟨call, r, scene, outcome⟩ :: outcome.reader.steps outcome.scene rest

/-- The reader has come out with a value or a defect, in the state in which it went in but for its
position, which has not gone back and is still among the frames. -/
structure Restores {α : Type} (r : Reader) (outcome : Outcome α) : Prop where
  faultless : ∀ fault place, outcome.value ≠ .error (.fault fault place)
  frames_eq : outcome.reader.frames = r.frames
  depth_eq : outcome.reader.place.depth = r.place.depth
  methods_eq : outcome.reader.place.methods = r.place.methods
  le_position : r.place.position ≤ outcome.reader.place.position
  position_le : outcome.reader.place.position ≤ r.frames.length

variable {r r' : Reader} {scene scene' : Scene}

/-- A pass that does what scanning and resolving do ends as they do, wherever a defect halts it. -/
theorem Ready.pass_ends {β γ : Type} {view : β → γ} {final : Scan} {step : Decode β} {pass : Pass β}
    {post : Slot β → Compilation → Prop} (h : r.Ready scene) (hfuses : Fuses r final step pass)
    (hsteady : Decode.Steady view step step) (hends : Decode.Ends step scene.compilation post) :
    ∃ (slot : Slot β) (scene' : Scene), step.run scene = (slot.mapError .defect, scene') ∧
      pass.run (r, scene) = (slot.mapError .defect, r.moved final.position, scene') ∧
      r.Goes scene (r.moved final.position) scene' := by
  obtain ⟨hleads, -, -⟩ := hsteady scene h.sound.clean
  obtain ⟨slot, scene', hrun, hsound, -, -⟩ := hends scene h.sound rfl
  have hagrees := hfuses scene
  rw [hrun] at hagrees hleads
  refine ⟨slot, scene', hrun, ?_⟩
  cases slot with
  | ok b =>
    have hagrees : Pass.Agrees r final (.ok b, scene') (pass.run (r, scene)) := hagrees
    generalize pass.run (r, scene) = run at hagrees
    cases hagrees with
    | done hreaches => exact ⟨rfl, ⟨_, hreaches.le, hreaches.faces.inside, rfl⟩, hleads, hsound⟩
  | error d =>
    have hagrees : Pass.Agrees r final (.error (.defect d), scene') (pass.run (r, scene)) := hagrees
    generalize pass.run (r, scene) = run at hagrees
    cases hagrees with
    | defect hscan hle hinside => exact ⟨rfl, ⟨_, hle, hinside, rfl⟩, hleads, hsound⟩

/-- Scanning first and resolving afterwards ends likewise. -/
theorem perform_of_run {α β : Type} {scanner : Scanner α} (meaning : α → Scan → Decode β)
    {slot : Slot β} (hrun : (meaning (scanner.run r.ahead).1 (scanner.run r.ahead).2).run scene =
      (slot.mapError .defect, scene')) :
    r.perform scanner meaning scene =
      ⟨slot.mapError .defect, r.moved (scanner.run r.ahead).2.position, scene'⟩ := by
  have hscan : scanner.run r.ahead = ((scanner.run r.ahead).1, (scanner.run r.ahead).2) := rfl
  rw [perform_match meaning hscan, hrun]
  cases slot <;> rfl

theorem Goes.restores {α : Type} {slot : Slot α} (h : r.Goes scene r' scene') :
    r.Restores ⟨slot.mapError .defect, r', scene'⟩ where
  faultless fault place hfault := by cases slot <;> cases hfault
  frames_eq := h.advances.frames
  depth_eq := by
    obtain ⟨position, -, -, rfl⟩ := h.advances
    rfl
  methods_eq := h.advances.methods
  le_position := h.advances.le
  position_le := by
    obtain ⟨position, -, hinside, rfl⟩ := h.advances
    exact hinside

theorem Restores.trans {α β : Type} {first : Outcome α} {second : Outcome β} (h : r.Restores first)
    (h' : first.reader.Restores second) : r.Restores second where
  faultless := h'.faultless
  frames_eq := h'.frames_eq.trans h.frames_eq
  depth_eq := h'.depth_eq.trans h.depth_eq
  methods_eq := h'.methods_eq.trans h.methods_eq
  le_position := Nat.le_trans h.le_position h'.le_position
  position_le := by
    rw [← h.frames_eq]
    exact h'.position_le

/-- A call ends with a value or a defect, whether it is made in one pass or by scanning first, and
the reader goes on from a state that it may have come to. -/
theorem Ready.call (h : r.Ready scene) (call : Call) : ∃ (slot : Slot Returned) (r' : Reader)
    (scene' : Scene), call.run r scene = ⟨slot.mapError .defect, r', scene'⟩ ∧
      call.read r scene = ⟨slot.mapError .defect, r', scene'⟩ ∧ r.Goes scene r' scene' := by
  have hmapped {α : Type} (f : α → Returned) (slot : Slot α) (r' : Reader) (scene' : Scene) :
      (⟨slot.mapError .defect, r', scene'⟩ : Outcome α).map f =
        ⟨(slot.map f).mapError .defect, r', scene'⟩ := by
    cases slot <;> rfl
  cases call with
  | key o =>
    have hends : Decode.Ends ((r.described o).resolveAt o r.place) scene.compilation fun _ _ =>
        True := by
      refine Decode.Ends.segment fun place hplace => ?_
      exact (Description.resolve_ends o _ place _ (hplace ▸ h.methods)).mono fun _ _ _ _ => trivial
    obtain ⟨slot, scene', hrun, hpass, hgoes⟩ :=
      h.pass_ends (fuses_key h.inside) (.segment (Description.resolve_steady o _)) hends
    refine ⟨slot.map .key, _, scene', ?_, ?_, hgoes⟩
    · rw [Call.run, Outcome.ofPass, hpass]
      exact hmapped .key slot _ scene'
    · have hread : r.readKey o scene = _ :=
        perform_of_run (fun (d : Description) _ => d.resolveAt o r.place) hrun
      rw [Call.read, hread]
      exact hmapped .key slot _ scene'
  | keys o =>
    have hends := (Description.reads_elements (o := o) (r.listed o).1 (r.listed o).2)
      (r.place.forward 1) scene.compilation h.methods
    obtain ⟨slot, scene', hrun, hpass, hgoes⟩ := h.pass_ends (fuses_keys h.inside) (.elements _ _
      (Description.steady_resolveEach (fun d _ place => Description.resolve_steady o d place) _))
        hends
    refine ⟨slot.map .keys, _, scene', ?_, ?_, hgoes⟩
    · rw [Call.run, Outcome.ofPass, hpass]
      exact hmapped .keys slot _ scene'
    · have hread : r.readKeys o scene = _ :=
        perform_of_run (fun (array : Slot Presence × List Description) _ =>
          Decode.elements array.1 (Description.resolveEach o array.2 (r.place.forward 1))) hrun
      rw [Call.read, hread]
      exact hmapped .keys slot _ scene'

/-- In one call the reader keeps its depth and its methods, and stays ready. -/
theorem Ready.run_restores (h : r.Ready scene) (call : Call) :
    call.run r scene = call.read r scene ∧ r.Restores (call.run r scene) ∧
      (call.run r scene).reader.Ready (call.run r scene).scene := by
  obtain ⟨slot, r', scene', hrun, hread, hgoes⟩ := h.call call
  rw [hrun, hread]
  exact ⟨rfl, hgoes.restores, h.later hgoes⟩

/-- Whatever a reader is asked for, one after the other, and whatever comes of it: each call ends
with a value or a defect, and leaves the depth, the methods and the frames as they were before the
first one. The position never goes back, and never passes the last frame, so that the reader is
ready for the next call. Keeping the depth and the methods by hand in one pass comes to the same as
scanning first. -/
theorem steps_restore (r : Reader) (scene : Scene) (calls : List (Call × (Arena → Arena)))
    (hlater : ∀ call ∈ calls, ∀ a : Arena, a.Later (call.2 a))
    (hreachable : scene.compilation.Reachable) (hclean : scene.arena.Clean)
    (hinside : r.place.position ≤ r.frames.length)
    (hmethods : ∀ m ∈ r.place.methods, scene.compilation.Issued m) :
    (r.steps scene calls).length = calls.length ∧
      ∀ step ∈ r.steps scene calls, step.outcome = step.call.read step.reader step.scene ∧
        step.reader.Restores step.outcome ∧ r.Restores step.outcome ∧
        step.outcome.reader.Ready step.outcome.scene := by
  have hready : r.Ready scene := ⟨hinside, ⟨hreachable.closed, hclean⟩, hmethods⟩
  clear hreachable hclean hinside hmethods
  induction calls generalizing r scene with
  | nil => exact ⟨rfl, fun step hstep => nomatch hstep⟩
  | cons call rest ih =>
    obtain ⟨call, meanwhile⟩ := call
    have hready₁ : r.Ready { scene with arena := meanwhile scene.arena } := by
      refine ⟨hready.inside, ⟨hready.sound.closed, ?_⟩, hready.methods⟩
      exact (hlater (call, meanwhile) List.mem_cons_self scene.arena).clean hready.sound.clean
    obtain ⟨hread, hrestores, hafter⟩ := hready₁.run_restores call
    obtain ⟨hlength, hrest⟩ :=
      ih _ _ (fun call hcall => hlater call (List.mem_cons_of_mem _ hcall)) hafter
    refine ⟨congrArg (· + 1) hlength, fun step hstep => ?_⟩
    rcases List.mem_cons.mp hstep with rfl | hstep
    · exact ⟨hread, hrestores, hrestores, hafter⟩
    · -- the state that this step found is one that the first call had left as it was
      obtain ⟨hsame, hlast, hsince, hlater⟩ := hrest step hstep
      exact ⟨hsame, hlast, hrestores.trans hsince, hlater⟩

/-- The signature of a method breaks off while it is replayed in the first of two candidates, three
segments down and inside a method. The next segment is read as if nothing had happened. -/
theorem steps_restore_broken :
    let c := (Draft.ofRequests [.namedType Draft.global "C" [], .method ⟨5⟩ "m" [],
      .method ⟨5⟩ "m" []]).finish
    let r : Reader :=
      { frames := [.kind .method, .kind .namedType, .kind .nameSpace, .bool true, .text (some "C"),
          .int 0, .array .absent 0, .text (some "m"), .int 0, .array .populated 1, .kind .arrayType,
          .text none, .kind .nameSpace, .bool true],
        place := { depth := 3, methods := [⟨6⟩] } }
    let broken := Outcome.ofPass (Pass.key .own {}) r { compilation := c }
    let next := Outcome.ofPass (Pass.key .own {}) broken.reader broken.scene
    broken.value = .error (.defect (.unexpected .kind 11 .text)) ∧
      broken.reader.place = { position := 12, depth := 3, methods := [⟨6⟩] } ∧
      next.value = .ok (.ok (.symbol ⟨0⟩)) ∧
      ∀ step ∈ r.steps { compilation := c } [(.key {}, id), (.key {}, id)],
        step.outcome.reader.place.depth = 3 ∧ step.outcome.reader.place.methods = [⟨6⟩] := by
  intro c r broken next
  have hreachable : c.Reachable :=
    .made (.finish ((Draft.made_ofRequests (by decide)).mono fun _ _ h => h.issued))
  refine ⟨by decide +kernel, by decide +kernel, by decide +kernel, fun step hstep => ?_⟩
  obtain ⟨-, hall⟩ := steps_restore r { compilation := c } [(.key {}, id), (.key {}, id)]
    (fun call hcall a => by
      simp only [List.mem_cons, List.not_mem_nil, or_false, or_self] at hcall
      rw [hcall]
      exact .refl)
    hreachable Arena.clean_empty (Nat.zero_le _) (fun m hm => by
      rw [List.mem_singleton.mp hm]
      show (6 : Nat) < c.table.size
      decide)
  obtain ⟨-, -, hrestores, -⟩ := hall step hstep
  exact ⟨hrestores.depth_eq, hrestores.methods_eq⟩

end Reader
end Moniker
