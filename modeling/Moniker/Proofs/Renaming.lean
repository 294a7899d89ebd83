import Moniker.Proofs.Leaves

/-!
# Texts under other spellings

Reading frames looks at what sort of content a frame has, at kinds, counts, flags and headers, and
never at the wording of a text. So a scan goes the same way through frames whose texts are spelt
otherwise, and yields the description with the texts spelt otherwise
(`Description.ofFrames_renamed`): `Scan.Renamed` relates a step to the step on the renamed frames,
with one rule for each way of putting steps together.
-/

namespace Moniker

/-- The frame with its text spelt otherwise. -/
def Frame.rename (f : String → String) : Frame → Frame
  | .text value => .text (value.map f)
  | frame => frame

/-- What a frame holds is the same sort of content in any spelling. -/
@[simp] theorem Frame.content_rename (f : String → String) (frame : Frame) :
    (frame.rename f).content = frame.content := by
  cases frame <;> rfl

/-- The location with its path spelt otherwise. -/
def Location.rename (f : String → String) : Location → Location
  | .nowhere => .nowhere
  | .source path span => .source (f path) span

/-- The scan of the renamed frames. -/
def Scan.rename (f : String → String) (scan : Scan) : Scan :=
  { scan with rest := scan.rest.map (Frame.rename f) }

namespace Description

mutual

/-- The description with all names and paths spelt otherwise. -/
def rename (f : String → String) : Description → Description
  | unreadable d => unreadable d
  | unflagged d => unflagged d
  | global => global
  | nameSpace container name => nameSpace (container.rename f) (name.map f)
  | namedType container name arity presence arguments =>
    namedType (container.rename f) (name.map f) arity presence (renameEach f arguments)
  | arrayType element rank => arrayType (element.rename f) rank
  | pointerType pointee => pointerType (pointee.rename f)
  | tupleType presence types names locations =>
    tupleType presence (renameEach f types) (names.map (Option.map f))
      (locations.map (Location.rename f))
  | anonymousType presence types names readOnly locations =>
    anonymousType presence (renameEach f types) (names.map (Option.map f)) readOnly
      (locations.map (Location.rename f))
  | typeParameter owner name => typeParameter (owner.rename f) (name.map f)
  | typeParameterOrdinal depth ordinal => typeParameterOrdinal depth ordinal
  | field container name => field (container.rename f) (name.map f)
  | property container name presence parameters =>
    property (container.rename f) (name.map f) presence (renameEach f parameters)
  | method container name arity presence parameters =>
    method (container.rename f) (name.map f) arity presence (renameEach f parameters)
  | parameter owner name => parameter (owner.rename f) (name.map f)
  | localVariable owner name ordinal => localVariable (owner.rename f) (name.map f) ordinal

def renameEach (f : String → String) : List Description → List Description
  | [] => []
  | d :: rest => d.rename f :: renameEach f rest

end

variable {f : String → String}

@[simp] theorem renameEach_eq (ds : List Description) : renameEach f ds = ds.map (rename f) := by
  induction ds with
  | nil => rfl
  | cons d rest ih => rw [renameEach, ih, List.map_cons]

end Description

/-! ## Defects -/

section Defects

variable {α β : Type} {f : String → String}

@[simp] theorem Slot.defect?_map (g : α → β) (slot : Slot α) :
    Slot.defect? (slot.map g) = Slot.defect? slot := by
  cases slot <;> rfl

@[simp] theorem Listing.defect?_map (g : α → β) (l : Listing α) :
    (l.map g).defect? = l.defect? := by
  rw [Listing.defect?, Listing.defect?, Listing.map, List.findSome?_map]
  simp only [Function.comp_def, Slot.defect?_map]

/-- Spelling has no bearing on defects. -/
theorem Description.defect?_rename (d : Description) : (d.rename f).defect? = d.defect? := by
  have hparts : ∀ ds : List Description, (∀ d ∈ ds, (d.rename f).defect? = d.defect?) →
      defects? (ds.map (rename f)) = defects? ds := by
    intro ds hds
    induction ds with
    | nil => rfl
    | cons d rest ih =>
        rw [List.map_cons, defects?, defects?, hds d (by simp), ih fun d hd => hds d (by simp [hd])]
  induction d with
  | unreadable _ | unflagged _ | global | typeParameterOrdinal _ _ => simp only [rename, defect?]
  | arrayType _ _ ih | pointerType _ ih => simp only [rename, defect?, ih]
  | nameSpace _ _ ih | typeParameter _ _ ih | field _ _ ih | parameter _ _ ih
  | localVariable _ _ _ ih => simp only [rename, defect?, ih, Slot.defect?_map]
  | namedType _ _ _ _ arguments ih iharguments | method _ _ _ _ arguments ih iharguments
  | property _ _ _ arguments ih iharguments =>
      simp only [rename, defect?, ih, Slot.defect?_map, renameEach_eq, hparts _ iharguments]
  | tupleType _ _ _ _ ih | anonymousType _ _ _ _ _ ih =>
      simp only [rename, defect?, renameEach_eq, hparts _ ih, Listing.defect?_map]

end Defects

/-! ## Scans -/

namespace Scan

variable {α β α' β' : Type} {f : String → String} {g : α → α'} {k : β → β'}

/-- On the renamed frames the second step yields the image of what the first one yields, and leaves
the frames that the first one leaves, renamed. -/
def Renamed (f : String → String) (g : α → α') (step : Scanner α) (step' : Scanner α') : Prop :=
  ∀ scan : Scan, step'.run (scan.rename f) = (g (step.run scan).1, (step.run scan).2.rename f)

/-- The same for readings, which end with the same defect. -/
abbrev RenamedSlot (f : String → String) (g : α →
      α') (reading : Reading α) (reading' : Reading α') :
    Prop :=
  Renamed f (Except.map g) reading.run reading'.run

namespace Renamed

theorem done {a : α} {a' : α'} (h : a' = g a) : Renamed f g (pure a) (pure a') := by
  intro scan
  rw [h]
  rfl

theorem bind {step : Scanner α} {step' : Scanner α'} {next : α → Scanner β}
    {next' : α' → Scanner β'} (h : Renamed f g step step')
    (h' : ∀ a, Renamed f k (next a) (next' (g a))) :
    Renamed f k (step >>= next) (step' >>= next') := by
  intro scan
  rw [run_bind, run_bind, h scan]
  exact h' _ _

/-- What always yields something is a reading, too. -/
theorem lift {step : Scanner α} {step' : Scanner α'} (h : Renamed f g step step') :
    RenamedSlot f g (liftM step) (liftM step') := by
  intro scan
  show (Except.ok (step'.run (scan.rename f)).1, (step'.run (scan.rename f)).2) = _
  rw [h scan]
  rfl

end Renamed

namespace RenamedSlot

theorem done {a : α} {a' : α'} (h : a' = g a) : RenamedSlot f g (pure a) (pure a') :=
  Renamed.done (congrArg Except.ok h)

theorem raise (d : Defect) : RenamedSlot f g (Scan.raise d) (Scan.raise d) := fun _ => rfl

theorem bind {step : Reading α} {step' : Reading α'} {next : α → Reading β}
    {next' : α' → Reading β'} (h : RenamedSlot f g step step')
    (h' : ∀ a, RenamedSlot f k (next a) (next' (g a))) :
    RenamedSlot f k (step >>= next) (step' >>= next') := by
  intro scan
  rw [run_readings, run_readings, h scan]
  cases hrun : step.run.run scan with
  | mk outcome after =>
      cases outcome with
      | error d => rfl
      | ok a => exact h' a after

theorem map {step : Reading α} {step' : Reading α'} {i : α → β} {i' : α' → β'}
    (h : RenamedSlot f g step step') (himage : ∀ a, i' (g a) = k (i a)) :
    RenamedSlot f k (i <$> step) (i' <$> step') := by
  rw [map_eq_pure_bind, map_eq_pure_bind]
  exact h.bind fun a => done (himage a)

/-- Renaming leaves the number of frames that follow. -/
theorem remaining {next : Nat → Reading β} {next' : Nat → Reading β'}
    (h : ∀ n, RenamedSlot f k (next n) (next' n)) :
    RenamedSlot f k (do next (← get).rest.length) (do next' (← get).rest.length) := by
  intro scan
  have hlength : (scan.rename f).rest.length = scan.rest.length := List.length_map _
  show (next' (scan.rename f).rest.length).run.run (scan.rename f) = _
  rw [hlength]
  exact h scan.rest.length scan

theorem resume : RenamedSlot f id Scan.resume Scan.resume := by
  rintro ⟨position, rest, defect⟩
  cases defect <;> rfl

theorem next : RenamedSlot f (Prod.map id (Frame.rename f)) Scan.next Scan.next := by
  rintro ⟨position, rest, defect⟩
  cases defect <;> cases rest <;> rfl

theorem expect (wanted : Frame.Content) {value? : Frame → Option α} {value?' : Frame → Option α'}
    (h : ∀ frame, value?' (frame.rename f) = (value? frame).map g) :
    RenamedSlot f (Prod.map id g) (Scan.expect wanted value?) (Scan.expect wanted value?') := by
  refine next.bind fun read => ?_
  obtain ⟨position, frame⟩ := read
  simp only [Prod.map, id, h, Frame.content_rename]
  cases value? frame with
  | none => exact raise _
  | some value => exact done rfl

theorem kind : RenamedSlot f id Scan.kind Scan.kind :=
  (expect .kind fun frame => by cases frame <;> rfl).map fun _ => rfl

theorem text : RenamedSlot f (Option.map f) Scan.text Scan.text :=
  (expect .text fun frame => by cases frame <;> rfl).map fun _ => rfl

theorem bool : RenamedSlot f id Scan.bool Scan.bool :=
  (expect .bool fun frame => by cases frame <;> rfl).map fun _ => rfl

theorem intAt : RenamedSlot f (Prod.map id id) Scan.intAt Scan.intAt :=
  expect .int fun frame => by cases frame <;> rfl

theorem name : RenamedSlot f f Scan.name Scan.name := by
  refine (expect (g := Option.map f) .text fun frame => by cases frame <;> rfl).bind fun read => ?_
  obtain ⟨position, value⟩ := read
  cases value with
  | none => exact raise _
  | some name => exact done rfl

theorem count : RenamedSlot f id Scan.count Scan.count := by
  refine intAt.bind fun read => ?_
  obtain ⟨position, value⟩ := read
  by_cases hneg : value < 0
  · simp only [Prod.map, id, hneg, if_true]
    exact raise _
  · simp only [Prod.map, id, hneg, if_false]
    exact done rfl

theorem header : RenamedSlot f id Scan.header Scan.header := by
  refine (expect (g := id) .array fun frame => by cases frame <;> rfl).bind fun read => ?_
  obtain ⟨position, presence, announced⟩ := read
  have hbound (n : Nat) : RenamedSlot f id
      (do
        if n < announced then
          Scan.raise (.overlong position announced n)
        return (presence, announced))
      (do
        if n < announced then
          Scan.raise (.overlong position announced n)
        return (presence, announced)) := by
    by_cases hlong : n < announced
    · simp only [hlong, if_true]
      exact (raise (g := id) _).bind fun _ => done rfl
    · simp only [hlong, if_false]
      exact done rfl
  by_cases hadmits : (!presence.admits announced) = true
  · simp only [Prod.map, id, hadmits, if_true]
    exact (raise (g := id) _).bind fun _ => remaining hbound
  · simp only [Prod.map, id, hadmits]
    exact remaining hbound

theorem pos : RenamedSlot f id Scan.pos Scan.pos :=
  count.bind fun _ => count.bind fun _ => count.bind fun _ => done rfl

theorem location : RenamedSlot f (Location.rename f) Scan.location Scan.location := by
  refine intAt.bind fun read => ?_
  obtain ⟨position, value⟩ := read
  simp only [Prod.map, id]
  split
  · exact done rfl
  · exact name.bind fun _ => pos.bind fun _ => pos.bind fun _ => done rfl
  · exact raise _

end RenamedSlot

namespace Renamed

/-! ### Arrays -/

theorem times {step : Scanner α} {step' : Scanner α'} (h : Renamed f g step step') (n : Nat) :
    Renamed f (List.map g) (Scan.times step n) (Scan.times step' n) := by
  induction n with
  | zero => exact done rfl
  | succ n ih => exact h.bind fun _ => ih.bind fun _ => done rfl

theorem array {step : Scanner α} {step' : Scanner α'} (h : Renamed f g step step') :
    Renamed f (Prod.map id (List.map g)) (Scan.array step) (Scan.array step') := by
  refine bind RenamedSlot.header fun read => ?_
  cases read with
  | error d => exact done rfl
  | ok read =>
      obtain ⟨presence, n⟩ := read
      exact (h.times n).bind fun _ => done rfl

theorem listing {item : Reading α} {item' : Reading α'} (h : RenamedSlot f g item item') :
    Renamed f (Listing.map g) (Scan.listing item) (Scan.listing item') :=
  (array h).bind fun _ => done rfl

end Renamed

end Scan

/-! ## Descriptions -/

namespace Description

open Scan

variable {f : String → String}

theorem bodyOfFrames_renamed {nested : Scanner Description}
    (h : Renamed f (rename f) nested nested) (category : Category) :
    Renamed f (rename f) (bodyOfFrames nested category) (bodyOfFrames nested category) := by
  have hname : Renamed f (Except.map f) Scan.name.run Scan.name.run := RenamedSlot.name
  have hcount : Renamed f (Except.map id) Scan.count.run Scan.count.run := RenamedSlot.count
  have htexts := Renamed.listing (RenamedSlot.text (f := f))
  have hlocations := Renamed.listing (RenamedSlot.location (f := f))
  cases category with
  | nameSpace =>
      refine Renamed.bind RenamedSlot.bool fun flag => ?_
      match flag with
      | .error d => exact .done (by simp only [rename])
      | .ok true => exact .done (by simp only [rename])
      | .ok false => exact h.bind fun _ => hname.bind fun _ => .done (by simp only [rename])
  | namedType =>
      refine h.bind fun _ => hname.bind fun _ => hcount.bind fun arity => h.array.bind fun _ => ?_
      exact .done (by simp only [rename, renameEach_eq, id, Except.map_id])
  | method =>
      refine h.bind fun _ => hname.bind fun _ => hcount.bind fun arity => h.array.bind fun _ => ?_
      exact .done (by simp only [rename, renameEach_eq, id, Except.map_id])
  | property =>
      refine h.bind fun _ => hname.bind fun _ => h.array.bind fun _ => ?_
      exact .done (by simp only [rename, renameEach_eq, id])
  | arrayType =>
      exact h.bind fun _ => hcount.bind fun _ => .done (by simp only [rename, Except.map_id, id])
  | pointerType => exact h.bind fun _ => .done (by simp only [rename])
  | tupleType =>
      refine h.array.bind fun _ => htexts.bind fun _ => hlocations.bind fun _ => ?_
      exact .done (by simp only [rename, renameEach_eq, id])
  | anonymousType =>
      refine h.array.bind fun _ => htexts.bind fun _ =>
        (Renamed.listing RenamedSlot.bool).bind fun flags => hlocations.bind fun _ => ?_
      have hflags : flags.map id = flags := by simp only [Listing.map, Except.map_id, List.map_id]
      exact .done (by simp only [rename, renameEach_eq, id, hflags])
  | typeParameterOrdinal =>
      exact hcount.bind fun _ => hcount.bind fun _ =>
        .done (by simp only [rename, Except.map_id, id])
  | typeParameter | field | parameter =>
      exact h.bind fun _ => hname.bind fun _ => .done (by simp only [rename])
  | localVariable =>
      refine h.bind fun _ => hname.bind fun _ => hcount.bind fun _ => ?_
      exact .done (by simp only [rename, Except.map_id, id])

/-- Reading renamed frames yields the renamed description. -/
theorem ofFrames_renamed (o : ResolveOptions) (n : Nat) :
    Renamed f (rename f) (ofFrames o n) (ofFrames o n) := by
  have hadmission : RenamedSlot f id (admission o) (admission o) := by
    refine RenamedSlot.resume.bind fun _ => ?_
    by_cases hcancelled : o.cancelled = true
    · simp only [hcancelled, if_true]
      exact .raise _
    · simp only [hcancelled]
      exact .done rfl
  have hor : ∀ {step : Reading Description}, RenamedSlot f (rename f) step step →
      Renamed f (rename f) (orUnreadable <$> step.run) (orUnreadable <$> step.run) := by
    intro step h scan
    rw [run_map, run_map, h scan]
    cases (step.run.run scan).1 with
    | error d => simp only [Except.map, orUnreadable, rename]
    | ok d => rfl
  induction n with
  | zero => exact hor (hadmission.bind fun _ => .raise _)
  | succ n ih =>
      refine hor (hadmission.bind fun _ => RenamedSlot.kind.bind fun category => ?_)
      exact (bodyOfFrames_renamed ih category).lift

end Description
end Moniker
