import Moniker.Proofs.Limits

/-!
# Two sequences of frames in lockstep

What a step does depends on the next frame, by its content and by what it holds; only the header of
an array also looks at how many frames are left. So a step that goes over two sequences side by side
does the same with both, provided that frames of one content are the same frame wherever both can be
taken (`Scan.Aligned`). Where they part, the second sequence has a defect, or the first one is
broken: it ends too early, or is malformed (`Description.lockstep_ofFrames`).

The sequences need not be equally long. One may be cut out of the other, or they may be known by
their text form only.
-/

namespace Moniker

/-- A frame that can be taken where its content is called for, if enough frames follow it. -/
def Frame.Admissible : Frame → Prop
  | .array presence n => presence.admits n.toNat
  | _ => True

/-- A defect that frames have where they stop too early or are not of one key. -/
def Defect.Broken (d : Defect) : Prop := d.kind = .truncated ∨ d.kind = .malformed

namespace Scan

variable {α β : Type} {follows : List Frame → List Frame →
  Prop} {position : Nat} {rest : List Frame}

/-! ## Single frames -/

theorem run_expect (wanted : Frame.Content) (value? : Frame → Option α) (f : Frame) :
    (expect wanted value?).run.run { position := position, rest := f :: rest } =
      match value? f with
      | some value => (.ok (position, value), { position := position + 1, rest := rest })
      | none => (raise (.unexpected wanted position f.content) : Reading (Nat × α)).run.run
          { position := position + 1, rest := rest } := by
  have hrun : (expect wanted value?).run.run { position := position, rest := f :: rest } =
      (match value? f with
        | some value => pure (position, value)
        | none => raise (.unexpected wanted position f.content) : Reading (Nat × α)).run.run
          { position := position + 1, rest := rest } := rfl
  rw [hrun]
  cases value? f <;> rfl

theorem run_header (presence : Presence) (n : UInt32) :
    header.run.run { position := position, rest := .array presence n :: rest } =
      if presence.admits n.toNat then
        if rest.length < n.toNat then
          (raise (.overlong position n.toNat rest.length) : Reading (Presence × Nat)).run.run
            { position := position + 1, rest := rest }
        else (.ok (presence, n.toNat), { position := position + 1, rest := rest })
      else (raise (.header presence n.toNat position) : Reading (Presence × Nat)).run.run
        { position := position + 1, rest := rest } := by
  rw [header, run_readings, run_expect]
  cases hadmits : presence.admits n.toNat with
  | false => simp only [hadmits]; rfl
  | true =>
      have hrun : (do
          let remaining := (← get).rest.length
          if remaining < n.toNat then
            raise (.overlong position n.toNat remaining)
          return (presence, n.toNat) : Reading (Presence × Nat)).run.run
            { position := position + 1, rest := rest } =
          (if rest.length < n.toNat then
            (do raise (.overlong position n.toNat rest.length); return (presence, n.toNat))
           else return (presence, n.toNat) : Reading (Presence × Nat)).run.run
            { position := position + 1, rest := rest } := rfl
      simp only [hadmits, if_true]
      by_cases hlen : rest.length < n.toNat
      · rw [if_pos hlen] at hrun ⊢
        exact hrun
      · rw [if_neg hlen] at hrun ⊢
        exact hrun

/-! ## Lockstep -/

/-- A relation between what is left of two sequences. Their next frames are the same if both can be
taken at the same place, and then what is left after them is related. -/
def Aligned (follows : List Frame → List Frame → Prop) : Prop :=
  ∀ ⦃f g : Frame⦄ ⦃rest rest' : List Frame⦄, follows (f :: rest) (g :: rest') →
    f.content = g.content → f.Admissible → g.Admissible → f = g ∧ follows rest rest'

/-- What two runs have come to: the first has ended broken, or the second has ended with a defect,
or both have yielded the same and stand at the same position. -/
inductive Level (follows : List Frame → List Frame → Prop) : α × Scan → α × Scan → Prop
  | broken {run run' : α × Scan} {d : Defect} (hd : run.2.defect = some d) (hbroken : d.Broken) :
    Level follows run run'
  | ended {run run' : α × Scan} {d : Defect} (hd : run'.2.defect = some d) : Level follows run run'
  | level (a : α) (position : Nat) {rest rest' : List Frame} (h : follows rest rest') :
    Level follows (a, { position := position, rest := rest })
      (a, { position := position, rest := rest' })

/-- From scans that stand in lockstep, the reading gets two runs that are level. -/
def Paced (follows : List Frame → List Frame → Prop) (reading : Reading α) : Prop :=
  ∀ (position : Nat) {rest rest' : List Frame}, follows rest rest' →
    Level follows (reading.run.run { position := position, rest := rest })
      (reading.run.run { position := position, rest := rest' })

namespace Paced

theorem done (a : α) : Paced follows (pure a) := fun position _ _ h => .level _ position h

theorem raise {d : Defect} : Paced follows (Scan.raise d : Reading α) := fun _ _ _ _ => .ended rfl

theorem bind {step : Reading α} {next : α → Reading β} {post : α → List Frame → Prop}
    (hlive : Live step post) (h : Paced follows step) (h' : ∀ a, Paced follows (next a)) :
    Paced follows (step >>= next) := by
  intro position rest rest' hrest
  have hlive' := hlive { position := position, rest := rest } rfl
  have hlive'' := hlive { position := position, rest := rest' } rfl
  have hstep := h position hrest
  rw [run_readings, run_readings]
  generalize step.run.run { position := position, rest := rest } = run at hstep hlive' ⊢
  generalize step.run.run { position := position, rest := rest' } = run' at hstep hlive'' ⊢
  cases hstep with
  | broken hd hbroken =>
      -- a reading that has yielded a value has not ended the scan
      obtain ⟨_ | _, scan⟩ := run
      · exact .broken hd hbroken
      · cases hd.symm.trans hlive'.1
  | ended hd =>
      obtain ⟨_ | _, scan⟩ := run'
      · exact .ended hd
      · cases hd.symm.trans hlive''.1
  | level slot position hrest =>
      cases slot with
      | error d => cases hlive'
      | ok a => exact h' a position hrest

theorem expect (halign : Aligned follows) {wanted : Frame.Content} {value? : Frame → Option α}
    (hvalue : ∀ f a, value? f = some a → f.content = wanted ∧ f.Admissible) :
    Paced follows (Scan.expect wanted value?) := by
  intro position rest rest' hrest
  match rest, rest', hrest with
  | [], _, _ => exact .broken rfl (.inl rfl)
  | _ :: _, [], _ => exact .ended rfl
  | f :: rest, g :: rest', hrest =>
      rw [run_expect, run_expect]
      cases hf : value? f with
      | none => exact .broken rfl (.inr rfl)
      | some a =>
          cases hg : value? g with
          | none => exact .ended rfl
          | some b =>
              obtain ⟨hcontent, hadmissible⟩ := hvalue f a hf
              obtain ⟨hcontent', hadmissible'⟩ := hvalue g b hg
              obtain ⟨rfl, hafter⟩ :=
                halign hrest (hcontent.trans hcontent'.symm) hadmissible hadmissible'
              cases hf.symm.trans hg
              exact .level _ _ hafter

theorem kind (halign : Aligned follows) : Paced follows Scan.kind := by
  rw [Scan.kind, map_eq_pure_bind]
  refine bind (.expect _ _) (expect halign fun f a h => ?_) fun _ => done _
  cases f with
  | kind => exact ⟨rfl, trivial⟩
  | _ => cases h

theorem text (halign : Aligned follows) : Paced follows Scan.text := by
  rw [Scan.text, map_eq_pure_bind]
  refine bind (.expect _ _) (expect halign fun f a h => ?_) fun _ => done _
  cases f with
  | text => exact ⟨rfl, trivial⟩
  | _ => cases h

theorem bool (halign : Aligned follows) : Paced follows Scan.bool := by
  rw [Scan.bool, map_eq_pure_bind]
  refine bind (.expect _ _) (expect halign fun f a h => ?_) fun _ => done _
  cases f with
  | bool => exact ⟨rfl, trivial⟩
  | _ => cases h

theorem intAt (halign : Aligned follows) : Paced follows Scan.intAt := by
  refine expect halign fun f a h => ?_
  cases f with
  | int => exact ⟨rfl, trivial⟩
  | _ => cases h

theorem name (halign : Aligned follows) : Paced follows Scan.name := by
  refine bind (.expect _ _) (expect halign fun f a h => ?_) fun read => ?_
  · cases f with
    | text => exact ⟨rfl, trivial⟩
    | _ => cases h
  · obtain ⟨position, _ | name⟩ := read
    · exact raise
    · exact done name

theorem count (halign : Aligned follows) : Paced follows Scan.count := by
  refine bind .intAt (intAt halign) fun read => ?_
  by_cases hneg : read.2 < 0
  · simp only [if_pos hneg]
    exact raise
  · simp only [if_neg hneg]
    exact done _

theorem pos (halign : Aligned follows) : Paced follows Scan.pos :=
  bind .count (count halign) fun _ => bind .count (count halign) fun _ =>
    bind .count (count halign) fun _ => done _

theorem location (halign : Aligned follows) : Paced follows Scan.location := by
  refine bind .intAt (intAt halign) fun read => ?_
  simp only
  split
  · exact done _
  · exact bind .name (name halign) fun _ => bind .pos (pos halign) fun _ =>
      bind .pos (pos halign) fun _ => done _
  · exact raise

/-- Two headers that can be taken are the same. They may still announce too many elements for what
is left of one sequence. -/
theorem header (halign : Aligned follows) : Paced follows Scan.header := by
  intro position rest rest' hrest
  match rest, rest', hrest with
  | [], _, _ => exact .broken rfl (.inl rfl)
  | _ :: _, [], _ => exact .ended rfl
  | .kind _ :: _, _ :: _, _ | .text _ :: _, _ :: _, _ | .bool _ :: _, _ :: _, _
  | .int _ :: _, _ :: _, _ => exact .broken rfl (.inr rfl)
  | .array _ _ :: _, .kind _ :: _, _ | .array _ _ :: _, .text _ :: _, _
  | .array _ _ :: _, .bool _ :: _, _ | .array _ _ :: _, .int _ :: _, _ => exact .ended rfl
  | .array presence n :: rest, .array presence' n' :: rest', hrest =>
      rw [run_header, run_header]
      by_cases hadmits : presence.admits n.toNat
      · by_cases hadmits' : presence'.admits n'.toNat
        · obtain ⟨heq, hafter⟩ := halign hrest rfl hadmits hadmits'
          cases heq
          rw [if_pos hadmits, if_pos hadmits]
          by_cases hlen : rest.length < n.toNat
          · rw [if_pos hlen]
            exact .broken rfl (.inr rfl)
          · by_cases hlen' : rest'.length < n.toNat
            · rw [if_pos hlen']
              exact .ended rfl
            · rw [if_neg hlen, if_neg hlen']
              exact .level _ _ hafter
        · rw [if_neg hadmits']
          exact .ended rfl
      · rw [if_neg hadmits]
        exact .broken rfl (.inr rfl)

end Paced

/-- Wherever two scans stand in lockstep, the step gets two runs that are level. It leaves a defect
that has ended a scan. -/
structure Lockstep (follows : List Frame → List Frame → Prop) (step : Scanner α) : Prop where
  keeps : ∀ scan : Scan, ∀ d, scan.defect = some d → (step.run scan).2.defect = some d
  level : ∀ (position : Nat) {rest rest' : List Frame}, follows rest rest' →
    Level follows (step.run { position := position, rest := rest })
      (step.run { position := position, rest := rest' })

theorem Tracks.lockstep {reading : Reading α} {post : Slot α → Option Defect → List Frame → Prop}
    (h : Tracks reading.run post) (hpaced : Paced follows reading) : Lockstep follows reading.run :=
  ⟨fun _ _ hd => h.keeps hd, hpaced⟩

namespace Lockstep

theorem done (a : α) : Lockstep follows (pure a) :=
  ⟨fun _ _ hd => hd, fun position _ _ h => .level a position h⟩

theorem bind {step : Scanner α} {next : α → Scanner β} (h : Lockstep follows step)
    (h' : ∀ a, Lockstep follows (next a)) : Lockstep follows (step >>= next) := by
  refine ⟨fun scan d hd => (h' _).keeps _ d (h.keeps scan d hd),
    fun position rest rest' hrest => ?_⟩
  rw [run_bind, run_bind]
  have hstep := h.level position hrest
  generalize step.run { position := position, rest := rest } = run at hstep ⊢
  generalize step.run { position := position, rest := rest' } = run' at hstep ⊢
  cases hstep with
  | broken hd hbroken => exact .broken ((h' _).keeps _ _ hd) hbroken
  | ended hd => exact .ended ((h' _).keeps _ _ hd)
  | level a position hrest => exact (h' a).level position hrest

theorem times {step : Scanner α} (h : Lockstep follows step) (n : Nat) :
    Lockstep follows (Scan.times step n) := by
  induction n with
  | zero => exact done []
  | succ n ih => exact h.bind fun a => ih.bind fun rest => done (a :: rest)

theorem array (halign : Aligned follows) {step : Scanner α} (h : Lockstep follows step) :
    Lockstep follows (Scan.array step) := by
  refine (Tracks.header.lockstep (.header halign)).bind fun slot => ?_
  cases slot with
  | error d => exact done _
  | ok read => exact (h.times read.2).bind fun items => done _

theorem listing (halign : Aligned follows) {item : Reading α} (h : Lockstep follows item.run) :
    Lockstep follows (Scan.listing item) :=
  (h.array halign).bind fun _ => done _

end Lockstep
end Scan

namespace Description

open Scan

variable {o : ResolveOptions} {follows : List Frame → List Frame → Prop}

theorem lockstep_body (halign : Aligned follows) {nested : Scanner Description}
    (h : Lockstep follows nested) (category : Category) :
    Lockstep follows (bodyOfFrames nested category) := by
  have hname := Tracks.name.lockstep (.name halign)
  have hcount := Tracks.count.lockstep (.count halign)
  have htexts := (Tracks.text.lockstep (.text halign)).listing halign
  have hbools := (Tracks.bool.lockstep (.bool halign)).listing halign
  have hlocations := (Tracks.location.lockstep (.location halign)).listing halign
  have harray := h.array halign
  cases category with
  | nameSpace =>
      refine (Tracks.bool.lockstep (.bool halign)).bind fun slot => ?_
      cases slot with
      | error d => exact .done _
      | ok flag =>
          cases flag with
          | true => exact .done _
          | false => exact h.bind fun _ => hname.bind fun _ => .done _
  | namedType | method =>
      exact h.bind fun _ => hname.bind fun _ => hcount.bind fun _ => harray.bind fun _ => .done _
  | arrayType => exact h.bind fun _ => hcount.bind fun _ => .done _
  | pointerType => exact h.bind fun _ => .done _
  | tupleType =>
      exact harray.bind fun _ => htexts.bind fun _ => hlocations.bind fun _ => .done _
  | anonymousType =>
      exact harray.bind fun _ => htexts.bind fun _ => hbools.bind fun _ =>
        hlocations.bind fun _ => .done _
  | typeParameterOrdinal => exact hcount.bind fun _ => hcount.bind fun _ => .done _
  | typeParameter | field | parameter => exact h.bind fun _ => hname.bind fun _ => .done _
  | property => exact h.bind fun _ => hname.bind fun _ => harray.bind fun _ => .done _
  | localVariable => exact h.bind fun _ => hname.bind fun _ => hcount.bind fun _ => .done _

/-- Two sequences are read as the same as far as they go in lockstep. A limit that the second one
keeps to, the first one keeps to until then. -/
theorem lockstep_ofFrames (halign : Aligned follows) (hlive : o.cancelled = false) (n : Nat) :
    Lockstep follows (ofFrames o n) := by
  induction n with
  | zero =>
      refine ⟨fun _ _ hd => (tracks_ofFrames o 0).keeps hd, fun position rest rest' _ => ?_⟩
      exact .ended (run_ofFrames_zero hlive rfl)
  | succ n ih =>
      rw [ofFrames_eq hlive]
      refine (Tracks.kind.lockstep (.kind halign)).bind fun slot => ?_
      cases slot with
      | error d => exact .done _
      | ok category => exact lockstep_body halign ih category

end Description
end Moniker
