import Moniker.Proofs.Limits
import Moniker.Proofs.Quiet

/-!
# Scanning and resolving at once

`Pass.Fuses r scan step pass` relates reading in one pass to scanning first and resolving
afterwards: the pass starts where the reader `r` stands, `scan` is where the scanning of the same
frames has got to, and `step` makes sense of what it yielded. Both come to the same outcome and the
same scene, and the reader is moved to where the scan is and is otherwise as it was. A defect is one
that ended the scan, so that nothing after it was scanned either. There is one rule for each kind of
slot, and `Fuses.bind` puts a step after another.
-/

namespace Moniker

namespace Reader

/-- The reader is among its frames, and the scan has the frames after it before it. -/
structure Faces (r : Reader) (scan : Scan) : Prop where
  eq : scan = { position := r.place.position, rest := r.frames.drop r.place.position }
  inside : r.place.position ≤ r.frames.length

/-- The scan goes on, from the reader's position or further on. -/
structure Reaches (r : Reader) (scan : Scan) : Prop where
  le : r.place.position ≤ scan.position
  faces : (r.moved scan.position).Faces scan

variable {r : Reader} {scan scan' : Scan} {α : Type}

theorem moved_position (r : Reader) (position : Nat) :
    (r.moved position).place.position = position := rfl

theorem Faces.live (h : r.Faces scan) : scan.defect = none := by rw [h.eq]

theorem Faces.position (h : r.Faces scan) : scan.position = r.place.position := by rw [h.eq]

theorem Faces.rest_length (h : r.Faces scan) :
    scan.rest.length = r.frames.length - r.place.position := by
  rw [h.eq, List.length_drop]

theorem Faces.moved_eq (h : r.Faces scan) : r.moved scan.position = r := by
  rw [h.position]
  rfl

theorem Faces.reaches (h : r.Faces scan) : r.Reaches scan :=
  ⟨h.position ▸ Nat.le_refl _, h.moved_eq.symm ▸ h⟩

/-- A scan gets as far as it has gone through frames. -/
theorem Faces.position_add (h : r.Faces scan) (h' : r.Reaches scan') {frames : List Frame}
    (hrest : scan.rest = frames ++ scan'.rest) :
    scan'.position = scan.position + frames.length := by
  have hlength := congrArg List.length hrest
  have hinside : scan'.position ≤ r.frames.length := h'.faces.inside
  have hbefore := h.inside
  have hposition := h.position
  rw [List.length_append, h.rest_length, h'.faces.rest_length] at hlength
  simp only [moved] at hlength
  omega

/-- What is learnt about a step whose scan goes on. -/
theorem Faces.tracked {step : Scanner α} {post : α → Option Defect → List Frame → Prop}
    (htracks : Scan.Tracks step post) (h : r.Faces scan)
    (h' : r.Reaches (step.run scan).2) : ∃ frames, post (step.run scan).1 none frames ∧
      (step.run scan).2.position = scan.position + frames.length := by
  obtain ⟨defect?, frames, hdefect, hrest, hpost⟩ := htracks scan
  rw [h'.faces.live, h.live] at hdefect
  obtain rfl : defect? = none := by simpa using hdefect.symm
  exact ⟨frames, hpost, h.position_add h' (hrest h'.faces.live)⟩

/-- A slot that was filled takes the frames of its value. -/
theorem Faces.position_slot {reading : Reading α} {good : α → Prop} {write : α → List Frame}
    (htracks : Scan.Tracks reading.run (Scan.ReadsSlot good write)) (h : r.Faces scan) {a : α}
    (hslot : (reading.run.run scan).1 = .ok a)
    (h' : r.Reaches (reading.run.run scan).2) :
    (reading.run.run scan).2.position = r.place.position + (write a).length := by
  obtain ⟨frames, ⟨-, hread⟩, hposition⟩ := h.tracked htracks h'
  obtain ⟨-, rfl⟩ := hread rfl
  rw [hposition, h.position, hslot]
  rfl

theorem Faces.position_name (h : r.Faces scan) {name : String}
    (hslot : (Scan.name.run.run scan).1 = .ok name) (h' : r.Reaches (Scan.name.run.run scan).2) :
    (Scan.name.run.run scan).2.position = r.place.position + 1 :=
  h.position_slot Scan.Tracks.name hslot h'

theorem Faces.position_count (h : r.Faces scan) {n : Nat}
    (hslot : (Scan.count.run.run scan).1 = .ok n) (h' : r.Reaches (Scan.count.run.run scan).2) :
    (Scan.count.run.run scan).2.position = r.place.position + 1 :=
  h.position_slot Scan.Tracks.count hslot h'

/-- The scan of a segment goes through as many frames as its description has. -/
theorem Faces.position_segment {o : ResolveOptions} {budget : Nat} (h : r.Faces scan)
    (h' : r.Reaches ((Description.ofFrames o budget).run scan).2) :
    ((Description.ofFrames o budget).run scan).2.position =
      r.place.position + ((Description.ofFrames o budget).run scan).1.width := by
  obtain ⟨frames, ⟨-, hread⟩, hposition⟩ := h.tracked (Description.tracks_ofFrames o budget) h'
  obtain ⟨-, rfl⟩ := hread rfl
  rw [hposition, h.position, Description.width]

end Reader

theorem Scan.run_pure (a : α) (scan : Scan) : (pure a : Scanner α).run scan = (a, scan) := rfl

namespace Pass

/-! ## The relation -/

/-- Two runs that come to the same. -/
inductive Agrees (r : Reader) (scan : Scan) {α : Type} :
    Except Halt α × Scene → Except Halt α × Reader × Scene → Prop
  | done {a : α} {scene : Scene} (hreaches : r.Reaches scan) :
    Agrees r scan (.ok a, scene) (.ok a, r.moved scan.position, scene)
  | defect {d : Defect} {scene : Scene} (hscan : scan.defect = some d)
    (hle : r.place.position ≤ scan.position) (hinside : scan.position ≤ r.frames.length) :
    Agrees r scan (.error (.defect d), scene) (.error (.defect d), r.moved scan.position, scene)
  | fault {fault : Fault} {place : Place} {scene : Scene} {r' : Reader} :
    Agrees r scan (.error (.fault fault place), scene) (.error (.fault fault place), r', scene)

/-- What agrees with a reader further on agrees with the reader. -/
theorem Agrees.from_moved {r : Reader} {scan : Scan} {position : Nat} {α : Type}
    {run : Except Halt α × Scene} {run' : Except Halt α × Reader × Scene}
    (h : Agrees (r.moved position) scan run run') (hle : r.place.position ≤ position) :
    Agrees r scan run run' := by
  cases h with
  | done hreaches => exact .done ⟨Nat.le_trans hle hreaches.le, hreaches.faces⟩
  | defect hscan hle' hinside => exact .defect hscan (Nat.le_trans hle hle') hinside
  | fault => exact .fault

/-- The pass from where the reader stands comes to the same as the step, and moves the reader to
where the scan is. -/
def Fuses (r : Reader) (scan : Scan) (step : Decode α) (pass : Pass α) : Prop :=
  ∀ scene, Agrees r scan (step.run scene) (pass.run (r, scene))

/-- A scan that has been ended is left alone. -/
def Halts (step : Scanner α) : Prop :=
  ∀ (scan : Scan) (d : Defect), scan.defect = some d → (step.run scan).2 = scan

/-- From one scan on, nothing happens if it has been ended. -/
def Stays (scan scan' : Scan) : Prop := ∀ d, scan.defect = some d → scan' = scan

section Scans

variable {α β : Type} {scan scan' scan'' : Scan}

theorem Stays.refl (scan : Scan) : Stays scan scan := fun _ _ => rfl

theorem Stays.trans (h : Stays scan scan') (h' : Stays scan' scan'') : Stays scan scan'' := by
  intro d hd
  have heq := h d hd
  rw [h' d (heq ▸ hd), heq]

theorem Halts.stays {step : Scanner α} (h : Halts step) (scan : Scan) :
    Stays scan (step.run scan).2 := h scan

theorem Halts.staysThen {step : Scanner α} (h : Halts step)
    (hstays : Stays (step.run scan).2 scan') :
    Stays scan scan' := (h.stays scan).trans hstays

theorem Halts.pure (a : α) : Halts (pure a) := fun _ _ _ => rfl

theorem Halts.bind {step : Scanner α} {next : α → Scanner β} (h : Halts step)
    (hnext : ∀ a, Halts (next a)) : Halts (step >>= next) := by
  intro scan d hd
  rw [Scan.run_bind, h scan d hd]
  exact hnext _ scan d hd

theorem Halts.reading {reading : Reading α} (h : Scan.Stops reading) : Halts reading.run := by
  intro scan d hd
  rw [h scan d hd]

theorem halts_text : Halts Scan.text.run := .reading ((Scan.Tracks.stops_expect _ _).bind _)

theorem halts_bool : Halts Scan.bool.run := .reading ((Scan.Tracks.stops_expect _ _).bind _)

theorem halts_name : Halts Scan.name.run := .reading ((Scan.Tracks.stops_expect _ _).bind _)

theorem halts_count : Halts Scan.count.run := .reading ((Scan.Tracks.stops_expect _ _).bind _)

theorem halts_location : Halts Scan.location.run :=
  .reading ((Scan.Tracks.stops_expect _ _).bind _)

theorem halts_times {step : Scanner α} (h : Halts step) (n : Nat) : Halts (Scan.times step n) := by
  induction n with
  | zero => exact .pure _
  | succ n ih => exact h.bind fun _ => ih.bind fun _ => .pure _

theorem halts_array {step : Scanner α} (h : Halts step) : Halts (Scan.array step) := by
  have hheader : Halts Scan.header.run := .reading ((Scan.Tracks.stops_expect _ _).bind _)
  refine hheader.bind fun slot => ?_
  cases slot with
  | ok read => exact (halts_times h read.2).bind fun _ => .pure _
  | error d => exact .pure _

theorem halts_listing {item : Reading α} (h : Halts item.run) : Halts (Scan.listing item) :=
  (halts_array h).bind fun _ => .pure _

theorem halts_ofFrames (o : ResolveOptions) (n : Nat) : Halts (Description.ofFrames o n) := by
  intro scan d hd
  rw [Description.run_ofFrames_ended hd]

end Scans

/-! ## Rules -/

namespace Fuses

variable {α β : Type} {r : Reader} {scan : Scan} {step : Decode α} {pass : Pass α}

theorem done (hfaces : r.Faces scan) (a : α) : Fuses r scan (pure a) (pure a) := by
  intro scene
  have hagrees : Agrees r scan (.ok a, scene) (.ok a, r.moved scan.position, scene) :=
    .done hfaces.reaches
  rwa [hfaces.moved_eq] at hagrees

/-- A step after another one. What is scanned after a scan that has been ended does not matter. -/
theorem bind {final : Scan} {next : α → Decode β} {next' : α → Pass β} (h : Fuses r scan step pass)
    (hstays : Stays scan final)
    (hnext : ∀ a, (∃ scene, (step.run scene).1 = .ok a) → r.Reaches scan →
      Fuses (r.moved scan.position) final (next a) (next' a)) :
    Fuses r final (step >>= next) (pass >>= next') := by
  intro scene
  have hagrees := h scene
  rw [Decode.run_bind, run_bind]
  rcases hrun : step.run scene with ⟨outcome, after⟩
  rw [hrun] at hagrees
  generalize pass.run (r, scene) = run at hagrees
  cases hagrees with
  | @done a _ hreaches =>
    have hvalue : ∃ scene, (step.run scene).1 = .ok a := ⟨scene, by rw [hrun]⟩
    exact (hnext a hvalue hreaches after).from_moved hreaches.le
  | defect hscan hle hinside =>
    -- the scan was ended here, so that this is where it ends
    obtain rfl := hstays _ hscan
    exact .defect hscan hle hinside
  | fault => exact .fault

end Fuses

/-! ## Readings -/

/-- The pass reads the slot that the reading yields. -/
abbrev Spells (r : Reader) (scan : Scan) (reading : Reading α) (pass : Pass α) : Prop :=
  Fuses r (reading.run.run scan).2 (Decode.ofSlot (reading.run.run scan).1) pass

namespace Spells

variable {α β : Type} {r : Reader} {scan : Scan} {reading : Reading α} {pass : Pass α}

theorem done (hfaces : r.Faces scan) (a : α) : Spells r scan (pure a) (pure a) :=
  Fuses.done hfaces a

theorem raise (hfaces : r.Faces scan) (d : Defect) :
    Spells r scan (Scan.raise d : Reading α) (Pass.defect d) := by
  intro scene
  have hagrees : Agrees r { scan with defect := some d } (.error (.defect d), scene)
      ((.error (.defect d), r.moved scan.position, scene) : Except Halt α × Reader × Scene) :=
    .defect rfl (hfaces.position ▸ Nat.le_refl _) (hfaces.position ▸ hfaces.inside)
  rwa [hfaces.moved_eq] at hagrees

/-- A step that goes on with the value in a slot. -/
theorem bind {final : Scan} {next : α → Decode β} {next' : α → Pass β}
    (h : Spells r scan reading pass) (hstays : Stays (reading.run.run scan).2 final)
    (hnext : ∀ a, (reading.run.run scan).1 = .ok a →
      r.Reaches (reading.run.run scan).2 →
        Fuses (r.moved (reading.run.run scan).2.position) final (next a) (next' a)) :
    Fuses r final (Decode.ofSlot (reading.run.run scan).1 >>= next) (pass >>= next') := by
  refine Fuses.bind h hstays fun a ⟨scene, hvalue⟩ hfaces => hnext a ?_ hfaces
  cases hslot : (reading.run.run scan).1 with
  | ok b =>
    rw [hslot] at hvalue
    cases hvalue
    rfl
  | error d =>
    rw [hslot] at hvalue
    cases hvalue

/-- A slot that decides how the scan goes on. -/
theorem branch {rest : Slot α → Scanner γ} {next : α → Pass β} (h : Spells r scan reading pass)
    (meaning : γ → Decode β) (hhalts : ∀ d, Halts (rest (.error d)))
    (herror : ∀ d after, meaning ((rest (.error d)).run after).1 = throw (.defect d))
    (hnext : ∀ a after, reading.run.run scan = (.ok a, after) →
      r.Reaches after →
        Fuses (r.moved after.position) ((rest (.ok a)).run after).2
          (meaning ((rest (.ok a)).run after).1) (next a)) :
    Fuses r ((reading.run >>= rest).run scan).2 (meaning ((reading.run >>= rest).run scan).1)
      (pass >>= next) := by
  intro scene
  have hagrees := h scene
  rw [Scan.run_bind, run_bind]
  rcases hrun : reading.run.run scan with ⟨slot, after⟩
  rw [hrun] at hagrees
  cases slot with
  | ok a =>
    have hslot : (Decode.ofSlot (.ok a : Slot α)).run scene = (.ok a, scene) := rfl
    rw [hslot] at hagrees
    generalize pass.run (r, scene) = run at hagrees
    cases hagrees with
    | done hreaches => exact (hnext a after hrun hreaches scene).from_moved hreaches.le
  | error d =>
    have hslot : (Decode.ofSlot (.error d : Slot α)).run scene = (.error (.defect d), scene) := rfl
    rw [hslot] at hagrees
    simp only
    rw [herror]
    generalize pass.run (r, scene) = run at hagrees
    cases hagrees with
    | defect hscan hle hinside =>
      rw [hhalts d after d hscan]
      exact .defect hscan hle hinside

/-- One reading after another. -/
theorem andThen {next : α → Reading β} {next' : α → Pass β} (h : Spells r scan reading pass)
    (hnext : ∀ a after, reading.run.run scan = (.ok a, after) →
      r.Reaches after → Spells (r.moved after.position) after (next a) (next' a)) :
    Spells r scan (reading >>= next) (pass >>= next') := by
  unfold Spells
  rw [ExceptT.run_bind]
  exact h.branch Decode.ofSlot (fun _ => .pure _) (fun _ _ => rfl) hnext

/-- The next frame, whatever becomes of what it holds. -/
theorem expect {wanted : Frame.Content} {value? : Frame → Option α} {next : Nat × α → Reading β}
    {next' : α → Pass β} (hfaces : r.Faces scan)
    (hnext : ∀ value after, r.Reaches after → after.position = r.place.position + 1 →
      Spells (r.moved after.position) after (next (r.place.position, value)) (next' value)) :
    Spells r scan (Scan.expect wanted value? >>= next) (Pass.expect wanted value? >>= next') := by
  intro scene
  unfold Pass.expect Scan.expect
  rw [bind_assoc, bind_assoc]
  rw [Scan.run_readings, run_bind, run_next]
  obtain ⟨rfl, hinside⟩ := hfaces
  cases hrest : r.frames.drop r.place.position with
  | nil =>
    have hframe : r.frames[r.place.position]? = none := by
      rw [← List.head?_drop, hrest]
      rfl
    rw [hframe]
    exact .defect rfl (Nat.le_refl _) hinside
  | cons frame rest =>
    have hframe : r.frames[r.place.position]? = some frame := by
      rw [← List.head?_drop, hrest]
      rfl
    rw [hframe]
    have hafter : (r.moved (r.place.position + 1)).Faces
        { position := r.place.position + 1, rest := rest } := by
      have hlt : r.place.position < r.frames.length := (List.getElem?_eq_some_iff.mp hframe).1
      refine ⟨?_, hlt⟩
      have hdrop := List.tail_drop (l := r.frames) (i := r.place.position)
      rw [hrest] at hdrop
      show _ = ({ position := _, rest := r.frames.drop (r.place.position + 1) } : Scan)
      rw [← hdrop]
      rfl
    have hnextFrame : Scan.next.run.run
        { position := r.place.position, rest := frame :: rest } =
          (.ok (r.place.position, frame), { position := r.place.position + 1, rest := rest }) := rfl
    rw [hnextFrame]
    dsimp only
    cases hvalue : value? frame with
    | some value =>
      exact (hnext value _ ⟨Nat.le_succ _, hafter⟩ rfl scene).from_moved (Nat.le_succ _)
    | none =>
      have hdefect : Agrees (r.moved (r.place.position + 1))
          { position := r.place.position + 1, rest := rest,
            defect := some (.unexpected wanted r.place.position frame.content) }
          (.error (.defect (.unexpected wanted r.place.position frame.content)), scene)
          ((.error (.defect (.unexpected wanted r.place.position frame.content)),
            r.moved (r.place.position + 1), scene) : Except Halt β × Reader × Scene) :=
        .defect rfl (Nat.le_refl _) hafter.inside
      exact hdefect.from_moved (Nat.le_succ _)

theorem congr {reading' : Reading α} {pass' : Pass α} (hreading : reading = reading')
    (hpass : pass = pass') (h : Spells r scan reading' pass') : Spells r scan reading pass :=
  hreading ▸ hpass ▸ h

/-- A defect of the frame that was read last. -/
theorem raiseLast (hfaces : r.Faces scan) {position : Nat}
    (hposition : r.place.position = position + 1) (report : Nat → Defect) :
    Spells r scan (Scan.raise (report position) : Reading α)
      (last >>= fun position => Pass.defect (report position)) := by
  intro scene
  rw [run_bind, run_last, run_minus, hposition, if_pos (Nat.le_add_left 1 position)]
  exact raise hfaces (report position) scene

/-- The same when more would follow. -/
theorem raiseLastThen (hfaces : r.Faces scan) {position : Nat}
    (hposition : r.place.position = position + 1) (report : Nat → Defect) (next : α → Reading β)
    (next' : α → Pass β) :
    Spells r scan ((Scan.raise (report position) : Reading α) >>= next)
      (last >>= fun position => Pass.defect (report position) >>= next') := by
  rw [← bind_assoc]
  exact (raiseLast hfaces hposition report).andThen fun _ _ hrun _ => nomatch hrun

/-- How many frames are left, which both can tell. -/
theorem remaining {next : Scan → Reading α} {next' : Nat → Pass α} (hfaces : r.Faces scan)
    (h : Spells r scan (next scan) (next' scan.rest.length)) :
    Spells r scan (get >>= next) (left >>= next') := by
  intro scene
  rw [run_bind, run_left, run_minus, if_pos hfaces.inside, ← hfaces.rest_length]
  exact h scene

theorem plain {wanted : Frame.Content} {value? : Frame → Option α} (hfaces : r.Faces scan) :
    Spells r scan (Prod.snd <$> Scan.expect wanted value?) (Pass.expect wanted value?) := by
  rw [map_eq_pure_bind, ← bind_pure (Pass.expect wanted value?)]
  exact expect hfaces fun value after hafter _ => done hafter.faces value

theorem kind (hfaces : r.Faces scan) : Spells r scan Scan.kind Pass.kind := plain hfaces

theorem text (hfaces : r.Faces scan) : Spells r scan Scan.text Pass.text := plain hfaces

theorem bool (hfaces : r.Faces scan) : Spells r scan Scan.bool Pass.bool := plain hfaces

theorem name (hfaces : r.Faces scan) : Spells r scan Scan.name Pass.name := by
  refine expect hfaces fun value after hafter hposition => ?_
  cases value with
  | some name => exact done hafter.faces name
  | none => exact raiseLast hafter.faces hposition Defect.missingName

theorem count (hfaces : r.Faces scan) : Spells r scan Scan.count Pass.count := by
  refine expect hfaces fun value after hafter hposition => ?_
  by_cases hneg : value < 0
  · simp only [hneg, if_true]
    exact raiseLast hafter.faces hposition (Defect.negativeCount value)
  · simp only [hneg, if_false]
    exact done hafter.faces _

theorem pos (hfaces : r.Faces scan) : Spells r scan Scan.pos Pass.pos :=
  (count hfaces).andThen fun _ _ _ h => (count h.faces).andThen fun _ _ _ h =>
    (count h.faces).andThen fun _ _ _ h => done h.faces _

theorem site (hfaces : r.Faces scan) : Spells r scan Scan.location Pass.site := by
  refine expect hfaces fun value after hafter hposition => ?_
  by_cases hnowhere : value = 0
  · subst hnowhere
    exact done hafter.faces _
  by_cases hsource : value = 1
  · subst hsource
    exact (name hafter.faces).andThen fun _ _ _ h => (pos h.faces).andThen fun _ _ _ h =>
      (pos h.faces).andThen fun _ _ _ h => done h.faces _
  -- each side looks at the number for itself
  refine congr ?_ ?_ (raiseLast hafter.faces hposition (Defect.locationKind value))
  · dsimp only
    split
    · exact absurd rfl hnowhere
    · exact absurd rfl hsource
    · rfl
  · split
    · exact absurd rfl hnowhere
    · exact absurd rfl hsource
    · rfl

theorem header (hfaces : r.Faces scan) : Spells r scan Scan.header Pass.header := by
  refine expect hfaces fun value after hafter hposition => ?_
  obtain ⟨presence, n⟩ := value
  simp only
  by_cases hadmits : presence.admits n
  · simp only [hadmits, Bool.not_true, Bool.false_eq_true, if_false]
    refine remaining hafter.faces ?_
    by_cases hlt : after.rest.length < n
    · simp only [hlt, if_true]
      exact raiseLastThen hafter.faces hposition (Defect.overlong · n after.rest.length) _ _
    · simp only [hlt, if_false]
      exact done hafter.faces _
  · simp only [hadmits, Bool.not_false, if_true]
    exact raiseLastThen hafter.faces hposition (Defect.header presence n) _ _

end Spells

/-! ## Buffers and arrays -/

open Decode (Quiet)

namespace Fuses

variable {α β : Type} {r : Reader} {scan : Scan} {step : Decode β} {pass : Pass β}

/-- A step that no defect halts. -/
theorem lift (hfaces : r.Faces scan)
    (h : ∀ scene d, (step.run scene).1 ≠ .error (.defect d)) :
    Fuses r scan step (Pass.lift step) := by
  intro scene
  have hspotless := h scene
  rw [run_lift]
  rcases hrun : step.run scene with ⟨outcome, after⟩
  rw [hrun] at hspotless
  cases outcome with
  | ok b => exact Fuses.done hfaces b after
  | error halt =>
    cases halt with
    | defect d => exact absurd rfl (hspotless d)
    | fault fault place => exact .fault

theorem quiet (hfaces : r.Faces scan) (h : Quiet step) : Fuses r scan step (Pass.lift step) :=
  lift hfaces h.spotless

variable [Lends α]

theorem borrow (hfaces : r.Faces scan) (presence : Presence) (n : Nat) :
    Fuses r scan (Decode.borrow presence n : Decode (Loan α))
      (Pass.lift (Decode.borrow presence n)) :=
  lift hfaces fun _ _ h => nomatch h

theorem giveBack (hfaces : r.Faces scan) (loan : Loan α) :
    Fuses r scan (Decode.giveBack loan) (Pass.lift (Decode.giveBack loan)) :=
  lift hfaces fun _ _ h => nomatch h

theorem orGiveBack (loan : Loan α) (h : Fuses r scan step pass) :
    Fuses r scan (Decode.orGiveBack loan step) (Pass.orGiveBack loan pass) := by
  intro scene
  have hagrees := h scene
  rw [Decode.run_orGiveBack, run_orGiveBack]
  generalize step.run scene = run, pass.run (r, scene) = run' at hagrees
  cases hagrees with
  | done hreaches => exact .done hreaches
  | defect hscan hle hinside => exact .defect hscan hle hinside
  | fault => exact .fault

theorem during (loan : Loan α) (h : Fuses r scan step pass) :
    Fuses r scan (Decode.during loan step) (Pass.during loan pass) :=
  (orGiveBack loan h).bind (.refl _) fun b _ h =>
    (giveBack h.faces loan).bind (.refl _) fun _ _ h => done h.faces b

theorem duringEither (lent : Except Failure (Loan α)) (h : Fuses r scan step pass) :
    Fuses r scan (Decode.duringEither lent step) (Pass.duringEither lent pass) := by
  cases lent with
  | ok loan => exact during loan h
  | error reason => exact h

theorem gather {reading : Reading α} {item : Pass α} (hhalts : Halts reading.run)
    (hitem : ∀ r scan, Reader.Faces r scan → Spells r scan reading item) (n : Nat) (loan : Loan α)
    (hfaces : r.Faces scan) :
    Fuses r ((Scan.times reading.run n).run scan).2
      (Decode.gather ((Scan.times reading.run n).run scan).1 loan) (Pass.gather item n loan) := by
  induction n generalizing r scan loan with
  | zero => exact done hfaces loan
  | succ n ih =>
    exact (orGiveBack loan (hitem r scan hfaces)).bind ((halts_times hhalts n).stays _)
      fun a _ h => ih (loan.push a) h.faces

omit [Lends α] in
theorem length_times (step : Scanner α) (n : Nat) (scan : Scan) :
    ((Scan.times step n).run scan).1.length = n := by
  induction n generalizing scan with
  | zero => rfl
  | succ n ih => exact congrArg (· + 1) (ih (step.run scan).2)

omit [Lends α] in
/-- An array, given what becomes of its elements. -/
theorem array {scanner : Scanner α} {next : Presence × Nat → Pass β}
    (meaning : Slot Presence → List α → Decode β) (hfaces : r.Faces scan)
    (herror : ∀ d, meaning (.error d) [] = throw (.defect d))
    (hnext : ∀ presence n after, r.Reaches after → after.position = r.place.position + 1 →
        Fuses (r.moved after.position) ((Scan.times scanner n).run after).2
          (meaning (.ok presence) ((Scan.times scanner n).run after).1) (next (presence, n))) :
    Fuses r ((Scan.array scanner).run scan).2
      (meaning ((Scan.array scanner).run scan).1.1 ((Scan.array scanner).run scan).1.2)
      (Pass.header >>= next) := by
  unfold Scan.array
  refine (Spells.header hfaces).branch (fun a : Slot Presence × List α => meaning a.1 a.2)
    (fun _ => .pure _) (fun d _ => herror d) ?_
  rintro ⟨presence, n⟩ after hrun hafter
  have hscan : (Scan.header.run.run scan).2 = after := by rw [hrun]
  have hposition := hfaces.position_slot Scan.Tracks.header (by rw [hrun]) (hscan ▸ hafter)
  exact hnext presence n after hafter (by rwa [hscan] at hposition)

theorem listing {reading : Reading α} {item : Pass α} (hhalts : Halts reading.run)
    (hitem : ∀ r scan, Reader.Faces r scan → Spells r scan reading item) (hfaces : r.Faces scan) :
    Fuses r ((Scan.listing reading).run scan).2
      (Decode.listing ((Scan.listing reading).run scan).1) (Pass.listing item) := by
  refine array (fun presence items => Decode.listing ⟨presence, items⟩) hfaces (fun _ => rfl) ?_
  intro presence n after hafter _
  show Fuses _ _ (Decode.borrow presence ((Scan.times reading.run n).run after).1.length >>=
    Decode.gather ((Scan.times reading.run n).run after).1) _
  rw [length_times]
  exact (borrow hafter.faces presence n).bind ((halts_times hhalts n).stays after)
    fun loan _ h => gather hhalts hitem n loan h.faces

end Fuses

/-- The pass reads an element of an array wherever the reader stands from the position on, and the
steps make sense of what is scanned in place of the elements. -/
structure Elements (r : Reader) (start : Nat) (scanner : Scanner α)
    (steps : List α → Place → List (Decode (Except Failure β))) (item : Pass (Except Failure β)) :
    Prop where
  halts : Halts scanner
  length : ∀ as place, (steps as place).length = as.length
  cons : ∀ q scan rest, start ≤ q → (r.moved q).Faces scan →
    ∃ step later, steps ((scanner.run scan).1 :: rest) (r.moved q).place = step :: later ∧
      Fuses (r.moved q) (scanner.run scan).2 step item ∧
      ((r.moved q).Reaches (scanner.run scan).2 →
        later = steps rest (r.moved (scanner.run scan).2.position).place)

namespace Elements

variable {α β : Type} {r : Reader} {start : Nat} {scanner : Scanner α}
  {steps : List α → Place → List (Decode (Except Failure β))} {item : Pass (Except Failure β)}
  [Lends β]

theorem collect (h : Elements r start scanner steps item) (n index : Nat) (loan : Loan β)
    (failure : Option Failure) {q : Nat} (hq : start ≤ q) {scan : Scan}
    (hfaces : (r.moved q).Faces scan) :
    Fuses (r.moved q) ((Scan.times scanner n).run scan).2
      (Decode.collect index (steps ((Scan.times scanner n).run scan).1 (r.moved q).place) loan
        failure)
      (Pass.collect item index n loan failure) := by
  induction n generalizing index loan failure q scan with
  | zero =>
    have hnil : steps ((Scan.times scanner 0).run scan).1 (r.moved q).place = [] :=
      List.length_eq_zero_iff.mp (h.length _ _)
    rw [hnil]
    cases failure with
    | none => exact Fuses.done hfaces _
    | some reason =>
      exact (Fuses.giveBack hfaces loan).bind (.refl _) fun _ _ h => Fuses.done h.faces _
  | succ n ih =>
    obtain ⟨step, later, hsteps, hstep, hlater⟩ :=
      h.cons q scan ((Scan.times scanner n).run (scanner.run scan).2).1 hq hfaces
    have hrun : (Scan.times scanner (n + 1)).run scan =
        ((scanner.run scan).1 :: ((Scan.times scanner n).run (scanner.run scan).2).1,
          ((Scan.times scanner n).run (scanner.run scan).2).2) := rfl
    rw [hrun, hsteps]
    refine (Fuses.orGiveBack loan hstep).bind ((halts_times h.halts n).stays _)
      fun resolved _ hreaches => ?_
    rw [hlater hreaches]
    have hq' : start ≤ (scanner.run scan).2.position := Nat.le_trans hq hreaches.le
    cases resolved with
    | ok b => exact ih (index + 1) (loan.push b) failure hq' hreaches.faces
    | error reason => exact ih (index + 1) loan _ hq' hreaches.faces

/-- An array whose elements are resolved. -/
theorem elements (h : Elements r start scanner steps item) {q : Nat} (hq : start ≤ q) {scan : Scan}
    (hfaces : (r.moved q).Faces scan) :
    Fuses (r.moved q) ((Scan.array scanner).run scan).2
      (Decode.elements ((Scan.array scanner).run scan).1.1
        (steps ((Scan.array scanner).run scan).1.2 ((r.moved q).place.forward 1)))
      (Pass.elements item) := by
  refine Fuses.array (fun presence as =>
    Decode.elements presence (steps as ((r.moved q).place.forward 1))) hfaces (fun _ => rfl) ?_
  intro presence n after hafter hposition
  show Fuses _ _ (Decode.borrow presence (steps ((Scan.times scanner n).run after).1 _).length >>=
    fun loan => Decode.collect 0 (steps ((Scan.times scanner n).run after).1 _) loan none) _
  have hplace : (r.moved q).place.forward 1 = ((r.moved q).moved after.position).place := by
    rw [hposition]
    rfl
  rw [h.length, Fuses.length_times, hplace]
  refine (Fuses.borrow hafter.faces presence n).bind ((halts_times h.halts n).stays after)
    fun loan _ hloan => ?_
  rw [hafter.faces.moved_eq]
  exact h.collect n 0 loan none (Nat.le_trans hq hafter.le) hafter.faces

end Elements

theorem Fuses.locations {r : Reader} {scan : Scan} (hfaces : r.Faces scan) :
    Fuses r ((Scan.listing Scan.location).run scan).2
      (Decode.locations ((Scan.listing Scan.location).run scan).1)
      (Pass.elements Pass.location) := by
  have helements : Elements r r.place.position Scan.location.run
      (fun items _ => items.map Decode.location) Pass.location := by
    refine ⟨halts_location, fun _ _ => List.length_map _, fun q scan rest _ hfaces =>
      ⟨_, _, rfl, ?_, fun _ => rfl⟩⟩
    have hslot : Decode.location (Scan.location.run.run scan).1 =
        Decode.ofSlot (Scan.location.run.run scan).1 >>= fun l => Decode.location (.ok l) := by
      cases (Scan.location.run.run scan).1 <;> rfl
    rw [hslot]
    exact (Spells.site hfaces).bind (.refl _) fun l _ h => quiet h.faces (.location l)
  exact helements.elements (q := r.place.position) (Nat.le_refl _) hfaces

/-! ## Signatures -/

namespace Fuses

variable {r : Reader} {final : Scan} {signature : Place → Decode (Except Failure (Loan SymbolId))}
  {pass : Pass (Except Failure (Loan SymbolId))}

/-- A pass that begins with going back may as well begin further on. -/
theorem restart {α : Type} {step : Decode α} {pass : Pass α} (h : Fuses r final step pass)
    (hrun : ∀ scene, pass.run (r.moved final.position, scene) = pass.run (r, scene)) :
    Fuses (r.moved final.position) final step pass := by
  intro scene
  have hagrees := h scene
  rw [hrun]
  generalize step.run scene = run, pass.run (r, scene) = run' at hagrees
  cases hagrees with
  | done h =>
    have hagain : (r.moved final.position).Reaches final := ⟨Nat.le_refl _, h.faces⟩
    exact .done hagain
  | defect hscan hle hinside => exact .defect hscan (Nat.le_refl _) hinside
  | fault => exact .fault

theorem reread {method : SymbolId}
    (h : Fuses (r.pushMethod method) final (signature ((r.place.forward 1).within method)) pass) :
    Fuses r final (signature ((r.place.forward 1).within method))
      (Pass.reread r.place method pass) := by
  have hpop (position : Nat) : ((r.pushMethod method).moved position).popMethod =
      r.moved position := by
    simp [Reader.popMethod, Reader.pushMethod, Reader.moved, Place.within]
  intro scene
  have hagrees := h scene
  have hmoved : r.moved r.place.position = r := rfl
  rw [run_reread (Nat.le_refl _), hmoved]
  generalize (signature _).run scene = run, pass.run (r.pushMethod method, scene) = run' at hagrees
  cases hagrees with
  | done hreaches =>
    simp only [hpop]
    exact .done ⟨hreaches.le, hreaches.faces.eq, hreaches.faces.inside⟩
  | defect hscan hle hinside =>
    simp only [hpop]
    exact .defect hscan hle hinside
  | fault => exact .fault

/-- Signatures that are replayed once and again. -/
theorem replay
    (h : ∀ method, Fuses (r.pushMethod method) final
      (signature ((r.place.forward 1).within method)) pass)
    (candidate : SymbolId) (rest : List SymbolId) (sofar : Description.Replay) :
    Fuses r final (Description.replay (r.place.forward 1) signature (candidate :: rest) sofar)
      (Pass.replay r.place pass (candidate :: rest) sofar) := by
  have hstep (candidate : SymbolId) (rest : List SymbolId) (sofar : Description.Replay)
      (hrest : ∀ sofar, r.Reaches final → Fuses (r.moved final.position) final
        (Description.replay (r.place.forward 1) signature rest sofar)
        (Pass.replay r.place pass rest sofar)) :
      Fuses r final (Description.replay (r.place.forward 1) signature (candidate :: rest) sofar)
        (Pass.replay r.place pass (candidate :: rest) sofar) := by
    refine (reread (h candidate)).bind (.refl _) fun outcome _ hreaches => ?_
    cases outcome with
    | error reason => exact hrest _ hreaches
    | ok types =>
      -- the rest is replayed from where the signature has ended
      refine (during types ((quiet hreaches.faces (.query _ _)).bind (.refl _) fun _ _ h =>
        done h.faces _)).bind (.refl _) fun fits _ h => ?_
      rw [hreaches.faces.moved_eq]
      exact hrest _ hreaches
  induction rest generalizing candidate sofar with
  | nil => exact hstep candidate [] sofar fun sofar h => done h.faces sofar
  | cons next later ih =>
    refine hstep candidate (next :: later) sofar fun sofar hreaches => ?_
    refine (ih next sofar).restart fun scene => ?_
    -- what is left to replay begins with going back
    have hagain : (r.moved final.position).moved r.place.position = r := rfl
    have hmoved : r.moved r.place.position = r := rfl
    unfold Pass.replay
    rw [run_bind, run_bind, run_reread hreaches.le, run_reread (Nat.le_refl _), hagain, hmoved]

/-- A signature that is replayed for every candidate, or stepped over if there is none. -/
theorem replayAll (hnone : Fuses r final (signature (r.place.forward 1)) pass)
    (h : ∀ method, Fuses (r.pushMethod method) final
      (signature ((r.place.forward 1).within method)) pass)
    (candidates : List SymbolId) :
    Fuses r final (Description.replayAll (r.place.forward 1) signature candidates)
      (Pass.replayAll pass candidates) := by
  cases candidates with
  | nil =>
    refine hnone.bind (.refl _) fun outcome _ hreaches => ?_
    cases outcome with
    | ok types =>
      exact (giveBack hreaches.faces types).bind (.refl _) fun _ _ h => done h.faces _
    | error reason => exact done hreaches.faces _
  | cons candidate rest =>
    intro scene
    unfold Pass.replayAll
    rw [run_place]
    simp only [List.isEmpty_cons, Bool.false_eq_true, if_false, bind_pure]
    exact replay h candidate rest {} scene

end Fuses

end Pass
end Moniker
