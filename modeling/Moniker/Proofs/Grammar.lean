import Moniker.Proofs.Reading
import Moniker.Proofs.Resolving

/-!
# The language of keys

`Grammar.Derives n frames` says that the frames are one segment, in which segments are nested at
most `n` deep. It has a production for each category and says nothing about how frames are read.
Reading accepts exactly these frames: `Grammar.derives_iff` relates them to the descriptions that
frames can hold, and `Key.defect?_eq_none_iff` to the defects of a key.
-/

namespace Moniker

namespace Grammar

/-- A frame with a number that is not negative. -/
def IsCount (frame : Frame) : Prop := ∃ n : Int64, 0 ≤ n ∧ frame = .int n

/-- Whether a header with this presence may stand before these elements. -/
def Admits (presence : Presence) (elements : List (List Frame)) : Prop :=
  presence.admits elements.length ∧ elements.length < UInt32.size

/-- A header and the elements that it announces. -/
def array (presence : Presence) (elements : List (List Frame)) : List Frame :=
  .array presence (UInt32.ofNat elements.length) :: elements.flatten

/-- An array with elements of one sort. -/
def IsArray (element : List Frame → Prop) (frames : List Frame) : Prop :=
  ∃ presence elements, Admits presence elements ∧ (∀ e ∈ elements, element e) ∧
    frames = array presence elements

/-- A text, or its absence. -/
def IsText (frames : List Frame) : Prop := ∃ value, frames = [.text value]

def IsBool (frames : List Frame) : Prop := ∃ value, frames = [.bool value]

/-- A location: zero, or else one, a path and six coordinates. -/
inductive IsLocation : List Frame → Prop
  | nowhere : IsLocation [.int 0]
  | source {path : String} {coordinates : List Frame} (hlength : coordinates.length = 6)
    (hcoordinates : ∀ frame ∈ coordinates, IsCount frame) :
    IsLocation (.int 1 :: .text (some path) :: coordinates)

/-- The frames are one segment, with segments nested at most so deeply. -/
inductive Derives : Nat → List Frame → Prop
  | global {n : Nat} : Derives (n + 1) [.kind .nameSpace, .bool true]
  | nameSpace {n : Nat} {container : List Frame} (name : String)
    (hcontainer : Derives n container) :
    Derives (n + 1) (.kind .nameSpace :: .bool false :: container ++ [.text (some name)])
  | namedType {n : Nat} {container : List Frame} (name : String) {arity : Frame}
    {presence : Presence} {arguments : List (List Frame)} (hcontainer : Derives n container)
    (harity : IsCount arity) (hadmits : Admits presence arguments)
    (harguments : ∀ argument ∈ arguments, Derives n argument) :
    Derives (n + 1) (.kind .namedType :: container ++ [.text (some name), arity] ++
      array presence arguments)
  | arrayType {n : Nat} {element : List Frame} {rank : Frame} (helement : Derives n element)
    (hrank : IsCount rank) : Derives (n + 1) (.kind .arrayType :: element ++ [rank])
  | pointerType {n : Nat} {pointee : List Frame} (hpointee : Derives n pointee) :
    Derives (n + 1) (.kind .pointerType :: pointee)
  | tupleType {n : Nat} {presence : Presence} {types : List (List Frame)}
    {names locations : List Frame} (hadmits : Admits presence types)
    (htypes : ∀ type ∈ types, Derives n type) (hnames : IsArray IsText names)
    (hlocations : IsArray IsLocation locations) :
    Derives (n + 1) (.kind .tupleType :: array presence types ++ names ++ locations)
  | anonymousType {n : Nat} {presence : Presence} {types : List (List Frame)}
    {names readOnly locations : List Frame} (hadmits : Admits presence types)
    (htypes : ∀ type ∈ types, Derives n type) (hnames : IsArray IsText names)
    (hreadOnly : IsArray IsBool readOnly) (hlocations : IsArray IsLocation locations) :
    Derives (n + 1)
      (.kind .anonymousType :: array presence types ++ names ++ readOnly ++ locations)
  | typeParameter {n : Nat} {owner : List Frame} (name : String) (howner : Derives n owner) :
    Derives (n + 1) (.kind .typeParameter :: owner ++ [.text (some name)])
  | typeParameterOrdinal {n : Nat} {depth ordinal : Frame} (hdepth : IsCount depth)
    (hordinal : IsCount ordinal) :
    Derives (n + 1) [.kind .typeParameterOrdinal, depth, ordinal]
  | field {n : Nat} {container : List Frame} (name : String) (hcontainer : Derives n container) :
    Derives (n + 1) (.kind .field :: container ++ [.text (some name)])
  | property {n : Nat} {container : List Frame} (name : String) {presence : Presence}
    {parameters : List (List Frame)} (hcontainer : Derives n container)
    (hadmits : Admits presence parameters)
    (hparameters : ∀ parameter ∈ parameters, Derives n parameter) :
    Derives (n + 1) (.kind .property :: container ++ [.text (some name)] ++
      array presence parameters)
  | method {n : Nat} {container : List Frame} (name : String) {arity : Frame} {presence : Presence}
    {parameters : List (List Frame)} (hcontainer : Derives n container) (harity : IsCount arity)
    (hadmits : Admits presence parameters)
    (hparameters : ∀ parameter ∈ parameters, Derives n parameter) :
    Derives (n + 1) (.kind .method :: container ++ [.text (some name), arity] ++
      array presence parameters)
  | parameter {n : Nat} {owner : List Frame} (name : String) (howner : Derives n owner) :
    Derives (n + 1) (.kind .parameter :: owner ++ [.text (some name)])
  | localVariable {n : Nat} {owner : List Frame} (name : String) {ordinal : Frame}
    (howner : Derives n owner) (hordinal : IsCount ordinal) :
    Derives (n + 1) (.kind .localVariable :: owner ++ [.text (some name), ordinal])

theorem isCount_iff {frame : Frame} :
    IsCount frame ↔ ∃ n, Frame.FitsCount n ∧ frame = .count n := by
  constructor
  · rintro ⟨value, hvalue, rfl⟩
    have hneg : ¬ value < 0 := Int64.not_lt.mpr hvalue
    obtain ⟨hfits, hcount⟩ := Frame.count_toNat hneg
    exact ⟨_, hfits, hcount.symm⟩
  · rintro ⟨n, hn, rfl⟩
    exact ⟨Int64.ofNat n, Int64.not_lt.mp (Frame.not_neg_ofNat hn), Frame.count_eq hn⟩

/-! ## Descriptions have derivations -/

theorem array_eq {presence : Presence} {α : Type} {as : List α} (write : α → List Frame)
    (h : Frame.FitsHeader presence as.length) :
    Frame.header presence as.length :: as.flatMap write = array presence (as.map write) := by
  rw [array, Frame.header_eq h.lt, List.length_map, List.flatMap_def]

theorem admits_map {presence : Presence} {α : Type} {as : List α} {f : α → List Frame} :
    Admits presence (as.map f) ↔ Frame.FitsHeader presence as.length := by
  rw [Admits, List.length_map]
  exact ⟨fun h => ⟨h.1, h.2⟩, fun h => ⟨h.1, h.2⟩⟩

/-- The arrays of plain values that frames can hold are the arrays of the grammar. -/
theorem isArray_iff {α : Type} {good : α → Prop} {write : α → List Frame}
    {element : List Frame → Prop} (h : ∀ e, element e ↔ ∃ a, e = write a ∧ good a)
    {frames : List Frame} :
    IsArray element frames ↔ ∃ l : Listing α, l.Shaped good ∧ frames = l.frames write := by
  have hframes : ∀ presence (values : List α), Frame.FitsHeader presence values.length →
      (Listing.full presence values).frames write = array presence (values.map write) := by
    intro presence values hheader
    rw [← array_eq write hheader]
    simp [Listing.frames, Listing.full, Frame.ofHeader, Slot.frames, List.flatMap_map]
  constructor
  · rintro ⟨presence, elements, hadmits, helements, rfl⟩
    obtain ⟨values, rfl, hvalues⟩ := exists_map fun e he => (h e).mp (helements e he)
    have hheader := admits_map.mp hadmits
    exact ⟨.full presence values, ⟨presence, values, rfl, hheader, hvalues⟩,
      (hframes presence values hheader).symm⟩
  · rintro ⟨l, ⟨presence, values, rfl, hheader, hvalues⟩, rfl⟩
    refine ⟨presence, values.map write, admits_map.mpr hheader, fun e he => ?_,
      hframes presence values hheader⟩
    obtain ⟨a, ha, rfl⟩ := List.mem_map.mp he
    exact (h _).mpr ⟨a, rfl, hvalues a ha⟩

/-- Three numbers are the coordinates of a position. -/
theorem exists_pos {line col offset : Frame} (hline : IsCount line) (hcol : IsCount col)
    (hoffset : IsCount offset) : ∃ p : Pos, p.Fits ∧ [line, col, offset] = Frame.ofPos p := by
  obtain ⟨line, hline', rfl⟩ := isCount_iff.mp hline
  obtain ⟨col, hcol', rfl⟩ := isCount_iff.mp hcol
  obtain ⟨offset, hoffset', rfl⟩ := isCount_iff.mp hoffset
  obtain ⟨hfits, hframes⟩ := Pos.fits_ofNat hline' hcol' hoffset'
  exact ⟨_, hfits, hframes.symm⟩

theorem isLocation_iff {frames : List Frame} :
    IsLocation frames ↔ ∃ l : Location, frames = Frame.ofLocation l ∧ l.Fits := by
  constructor
  · rintro (_ | ⟨hlength, hcoordinates⟩)
    · exact ⟨.nowhere, rfl, trivial⟩
    · next path coordinates =>
        match coordinates, hlength with
        | [line, col, offset, line', col', offset'], _ =>
          obtain ⟨start, hstart, hstartFrames⟩ := exists_pos (hcoordinates line (by simp))
            (hcoordinates col (by simp)) (hcoordinates offset (by simp))
          obtain ⟨stop, hstop, hstopFrames⟩ := exists_pos (hcoordinates line' (by simp))
            (hcoordinates col' (by simp)) (hcoordinates offset' (by simp))
          refine ⟨.source path ⟨start, stop⟩, ?_, hstart, hstop⟩
          rw [Frame.ofLocation, ← hstartFrames, ← hstopFrames]
          rfl
  · rintro ⟨l, rfl, hfits⟩
    cases l with
    | nowhere => exact .nowhere
    | source path span =>
        obtain ⟨hstart, hstop⟩ := hfits
        refine .source rfl fun frame hframe => isCount_iff.mpr ?_
        simp only [Frame.ofPos, List.cons_append, List.nil_append, List.mem_cons, List.not_mem_nil,
          or_false] at hframe
        rcases hframe with rfl | rfl | rfl | rfl | rfl | rfl
        · exact ⟨_, hstart.line, rfl⟩
        · exact ⟨_, hstart.col, rfl⟩
        · exact ⟨_, hstart.offset, rfl⟩
        · exact ⟨_, hstop.line, rfl⟩
        · exact ⟨_, hstop.col, rfl⟩
        · exact ⟨_, hstop.offset, rfl⟩

theorem Derives.congr {n : Nat} {frames frames' : List Frame} (h : Derives n frames)
    (heq : frames = frames') : Derives n frames' :=
  heq ▸ h

/-- A count frame of a description is a count. -/
theorem isCount_count {n : Nat} (h : Frame.FitsCount n) : IsCount (.count n) :=
  isCount_iff.mpr ⟨n, h, rfl⟩

theorem isText_iff {frames : List Frame} :
    IsText frames ↔ ∃ value, frames = [.text value] ∧ True := by
  simp [IsText]

theorem isBool_iff {frames : List Frame} :
    IsBool frames ↔ ∃ value, frames = [.bool value] ∧ True := by
  simp [IsBool]

section Descriptions

open Description

-- in what follows, the segments of descriptions are spelled out frame by frame
attribute [local simp] withKind category? body Slot.frames Frame.ofName Frame.ofCount Frame.ofHeader

/-- The frames of a description that frames can hold are derived. -/
theorem derives_frames {n : Nat} {d : Description} (h : d.Shaped n) : Derives n d.frames := by
  induction h with
  | global => exact .global
  | @nameSpace n container name _ ih =>
      refine (Derives.nameSpace name ih).congr ?_
      simp [Description.frames]
  | @namedType n container name arity presence arguments _ harity hheader _ ih iharguments =>
      refine (Derives.namedType name ih (isCount_count harity) (admits_map.mpr hheader)
        (by simpa using iharguments)).congr ?_
      rw [← array_eq _ hheader]
      simp [Description.frames, bodies_eq]
  | @arrayType n element rank _ hrank ih =>
      refine (Derives.arrayType ih (isCount_count hrank)).congr ?_
      simp [Description.frames]
  | @pointerType n pointee _ ih => exact .pointerType ih
  | @tupleType n presence types names locations hheader _ hnames hlocations ih =>
      refine (Derives.tupleType (admits_map.mpr hheader) (by simpa using ih)
        ((isArray_iff fun _ => isText_iff).mpr ⟨names, hnames, rfl⟩)
        ((isArray_iff fun _ => isLocation_iff).mpr ⟨locations, hlocations, rfl⟩)).congr ?_
      rw [← array_eq _ hheader]
      simp [Description.frames, bodies_eq]
  | @anonymousType n presence types names readOnly locations hheader _ hnames hreadOnly
      hlocations ih =>
      refine (Derives.anonymousType (admits_map.mpr hheader) (by simpa using ih)
        ((isArray_iff fun _ => isText_iff).mpr ⟨names, hnames, rfl⟩)
        ((isArray_iff fun _ => isBool_iff).mpr ⟨readOnly, hreadOnly, rfl⟩)
        ((isArray_iff fun _ => isLocation_iff).mpr ⟨locations, hlocations, rfl⟩)).congr ?_
      rw [← array_eq _ hheader]
      simp [Description.frames, bodies_eq]
  | @typeParameter n owner name _ ih =>
      refine (Derives.typeParameter name ih).congr ?_
      simp [Description.frames]
  | @typeParameterOrdinal n depth ordinal hdepth hordinal =>
      exact .typeParameterOrdinal (isCount_count hdepth) (isCount_count hordinal)
  | @field n container name _ ih =>
      refine (Derives.field name ih).congr ?_
      simp [Description.frames]
  | @property n container name presence parameters _ hheader _ ih ihparameters =>
      refine (Derives.property name ih (admits_map.mpr hheader) (by simpa using ihparameters)).congr
        ?_
      rw [← array_eq _ hheader]
      simp [Description.frames, bodies_eq]
  | @method n container name arity presence parameters _ harity hheader _ ih ihparameters =>
      refine (Derives.method name ih (isCount_count harity) (admits_map.mpr hheader)
        (by simpa using ihparameters)).congr ?_
      rw [← array_eq _ hheader]
      simp [Description.frames, bodies_eq]
  | @parameter n owner name _ ih =>
      refine (Derives.parameter name ih).congr ?_
      simp [Description.frames]
  | @localVariable n owner name ordinal _ hordinal ih =>
      refine (Derives.localVariable name ih (isCount_count hordinal)).congr ?_
      simp [Description.frames]

/-- Derived frames are those of a description. -/
theorem exists_description {n : Nat} {frames : List Frame} (h : Derives n frames) :
    ∃ d : Description, d.Shaped n ∧ d.frames = frames := by
  have hlist : ∀ {n : Nat} {parts : List (List Frame)},
      (∀ part ∈ parts, ∃ d : Description, d.Shaped n ∧ d.frames = part) →
      ∃ ds : List Description, parts = ds.map Description.frames ∧ ∀ d ∈ ds, d.Shaped n := by
    intro n parts hparts
    refine exists_map fun part hpart => ?_
    obtain ⟨d, hd, hframes⟩ := hparts part hpart
    exact ⟨d, hframes.symm, hd⟩
  induction h with
  | global => exact ⟨.global, .global, rfl⟩
  | nameSpace name _ ih =>
      obtain ⟨container, hcontainer, rfl⟩ := ih
      refine ⟨.nameSpace container (.ok name), .nameSpace hcontainer, ?_⟩
      simp [Description.frames]
  | namedType name _ harity hadmits _ ih iharguments =>
      obtain ⟨container, hcontainer, rfl⟩ := ih
      obtain ⟨arity, harity', rfl⟩ := isCount_iff.mp harity
      obtain ⟨arguments, rfl, harguments⟩ := hlist iharguments
      have hheader := admits_map.mp hadmits
      refine ⟨.namedType container (.ok name) (.ok arity) (.ok _) arguments,
        .namedType hcontainer harity' hheader harguments, ?_⟩
      rw [← array_eq _ hheader]
      simp [Description.frames, bodies_eq]
  | arrayType _ hrank ih =>
      obtain ⟨element, helement, rfl⟩ := ih
      obtain ⟨rank, hrank', rfl⟩ := isCount_iff.mp hrank
      refine ⟨.arrayType element (.ok rank), .arrayType helement hrank', ?_⟩
      simp [Description.frames]
  | pointerType _ ih =>
      obtain ⟨pointee, hpointee, rfl⟩ := ih
      exact ⟨.pointerType pointee, .pointerType hpointee, rfl⟩
  | tupleType hadmits _ hnames hlocations ih =>
      obtain ⟨types, rfl, htypes⟩ := hlist ih
      obtain ⟨names, hnames', rfl⟩ := (isArray_iff fun _ => isText_iff).mp hnames
      obtain ⟨locations, hlocations', rfl⟩ := (isArray_iff fun _ => isLocation_iff).mp hlocations
      have hheader := admits_map.mp hadmits
      refine ⟨.tupleType (.ok _) types names locations,
        .tupleType hheader htypes hnames' hlocations', ?_⟩
      rw [← array_eq _ hheader]
      simp [Description.frames, bodies_eq]
  | anonymousType hadmits _ hnames hreadOnly hlocations ih =>
      obtain ⟨types, rfl, htypes⟩ := hlist ih
      obtain ⟨names, hnames', rfl⟩ := (isArray_iff fun _ => isText_iff).mp hnames
      obtain ⟨readOnly, hreadOnly', rfl⟩ := (isArray_iff fun _ => isBool_iff).mp hreadOnly
      obtain ⟨locations, hlocations', rfl⟩ := (isArray_iff fun _ => isLocation_iff).mp hlocations
      have hheader := admits_map.mp hadmits
      refine ⟨.anonymousType (.ok _) types names readOnly locations,
        .anonymousType hheader htypes hnames' hreadOnly' hlocations', ?_⟩
      rw [← array_eq _ hheader]
      simp [Description.frames, bodies_eq]
  | typeParameter name _ ih =>
      obtain ⟨owner, howner, rfl⟩ := ih
      refine ⟨.typeParameter owner (.ok name), .typeParameter howner, ?_⟩
      simp [Description.frames]
  | typeParameterOrdinal hdepth hordinal =>
      obtain ⟨depth, hdepth', rfl⟩ := isCount_iff.mp hdepth
      obtain ⟨ordinal, hordinal', rfl⟩ := isCount_iff.mp hordinal
      exact ⟨.typeParameterOrdinal (.ok depth) (.ok ordinal),
        .typeParameterOrdinal hdepth' hordinal', rfl⟩
  | field name _ ih =>
      obtain ⟨container, hcontainer, rfl⟩ := ih
      refine ⟨.field container (.ok name), .field hcontainer, ?_⟩
      simp [Description.frames]
  | property name _ hadmits _ ih ihparameters =>
      obtain ⟨container, hcontainer, rfl⟩ := ih
      obtain ⟨parameters, rfl, hparameters⟩ := hlist ihparameters
      have hheader := admits_map.mp hadmits
      refine ⟨.property container (.ok name) (.ok _) parameters,
        .property hcontainer hheader hparameters, ?_⟩
      rw [← array_eq _ hheader]
      simp [Description.frames, bodies_eq]
  | method name _ harity hadmits _ ih ihparameters =>
      obtain ⟨container, hcontainer, rfl⟩ := ih
      obtain ⟨arity, harity', rfl⟩ := isCount_iff.mp harity
      obtain ⟨parameters, rfl, hparameters⟩ := hlist ihparameters
      have hheader := admits_map.mp hadmits
      refine ⟨.method container (.ok name) (.ok arity) (.ok _) parameters,
        .method hcontainer harity' hheader hparameters, ?_⟩
      rw [← array_eq _ hheader]
      simp [Description.frames, bodies_eq]
  | parameter name _ ih =>
      obtain ⟨owner, howner, rfl⟩ := ih
      refine ⟨.parameter owner (.ok name), .parameter howner, ?_⟩
      simp [Description.frames]
  | localVariable name _ hordinal ih =>
      obtain ⟨owner, howner, rfl⟩ := ih
      obtain ⟨ordinal, hordinal', rfl⟩ := isCount_iff.mp hordinal
      refine ⟨.localVariable owner (.ok name) (.ok ordinal), .localVariable howner hordinal', ?_⟩
      simp [Description.frames]

end Descriptions

end Grammar

/-! ## Keys -/

namespace Key

variable {o : ResolveOptions} {k : Key} {d : Description}

/-- A key with the frames of a description is read as that description, to its end. -/
theorem scanned_eq (hlive : o.cancelled = false) (h : d.Shaped o.maxDepth.toNat)
    (hframes : k.frames = d.frames) :
    k.scanned o = (d, { position := d.frames.length, rest := [] }) := by
  have hrun := h.yields hlive 0 []
  rw [List.append_nil, Nat.zero_add] at hrun
  rw [scanned, hframes]
  exact hrun

/-- A key without a defect is read as a description with its frames. -/
theorem shaped_scanned (h : k.defect? o = none) :
    (k.scanned o).1.Shaped o.maxDepth.toNat ∧ k.frames = (k.scanned o).1.frames := by
  obtain ⟨hnone, hempty⟩ : (k.scanned o).1.defect? = none ∧ (k.scanned o).2.rest = [] := by
    simpa [defect?] using h
  obtain ⟨e, frames, hdefect, hrest, hread⟩ :=
    Description.tracks_ofFrames o o.maxDepth.toNat { position := 0, rest := k.frames }
  change Scan.Reads _ _ _ (k.scanned o).1 e frames at hread
  change (k.scanned o).2.defect = none → k.frames = frames ++ (k.scanned o).2.rest at hrest
  change (k.scanned o).2.defect = (none <|> e) at hdefect
  obtain ⟨rfl, hread⟩ := hread
  obtain ⟨hshaped, rfl⟩ := hread hnone
  refine ⟨hshaped, ?_⟩
  rw [hrest (by simpa [hnone] using hdefect), hempty, List.append_nil]

/-- A key has no defect exactly if its frames are one segment that is not nested too deeply. -/
theorem defect?_eq_none_iff (hlive : o.cancelled = false) :
    k.defect? o = none ↔ Grammar.Derives o.maxDepth.toNat k.frames := by
  constructor
  · intro h
    obtain ⟨hshaped, hframes⟩ := shaped_scanned h
    rw [hframes]
    exact Grammar.derives_frames hshaped
  · intro h
    obtain ⟨d, hshaped, hframes⟩ := Grammar.exists_description h
    rw [defect?, scanned_eq hlive hshaped hframes.symm]
    simp [show d.defect? = none from hshaped.intact]

end Key
end Moniker
