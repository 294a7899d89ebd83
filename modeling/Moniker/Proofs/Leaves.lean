import Moniker.Proofs.Reading

/-!
# Ranks and locations in descriptions

A description made from a symbol may hold numbers that no frame holds: the rank of an array type
and the coordinates of a location are machine words, and frames clip them. `Description.clipped` is
the description that the frames hold, and has the same frames (`Description.frames_clipped`).
`Description.withoutLocations` takes the contents of the locations away.
-/

namespace Moniker

/-- The array with other items. -/
def Listing.map (f : α → β) (l : Listing α) : Listing β := ⟨l.presence, l.items.map (Except.map f)⟩

/-- The position as count frames hold it. -/
def Pos.clipped (p : Pos) : Pos where
  line := UInt64.ofNat (min p.line.toNat Frame.maxCount)
  col := UInt64.ofNat (min p.col.toNat Frame.maxCount)
  offset := UInt64.ofNat (min p.offset.toNat Frame.maxCount)

/-- The location as frames hold it. -/
def Location.clipped : Location → Location
  | .nowhere => .nowhere
  | .source path span => .source path ⟨span.start.clipped, span.stop.clipped⟩

namespace Description

mutual

/-- The description with other ranks and other locations. -/
def mapLeaves (f : Nat → Nat) (g : Location → Location) : Description → Description
  | unreadable d => unreadable d
  | unflagged d => unflagged d
  | global => global
  | nameSpace container name => nameSpace (container.mapLeaves f g) name
  | namedType container name arity presence arguments =>
    namedType (container.mapLeaves f g) name arity presence (mapLeavesEach f g arguments)
  | arrayType element rank => arrayType (element.mapLeaves f g) (rank.map f)
  | pointerType pointee => pointerType (pointee.mapLeaves f g)
  | tupleType presence types names locations =>
    tupleType presence (mapLeavesEach f g types) names (locations.map g)
  | anonymousType presence types names readOnly locations =>
    anonymousType presence (mapLeavesEach f g types) names readOnly (locations.map g)
  | typeParameter owner name => typeParameter (owner.mapLeaves f g) name
  | typeParameterOrdinal depth ordinal => typeParameterOrdinal depth ordinal
  | field container name => field (container.mapLeaves f g) name
  | property container name presence parameters =>
    property (container.mapLeaves f g) name presence (mapLeavesEach f g parameters)
  | method container name arity presence parameters =>
    method (container.mapLeaves f g) name arity presence (mapLeavesEach f g parameters)
  | parameter owner name => parameter (owner.mapLeaves f g) name
  | localVariable owner name ordinal => localVariable (owner.mapLeaves f g) name ordinal

def mapLeavesEach (f : Nat → Nat) (g : Location → Location) : List Description → List Description
  | [] => []
  | d :: rest => d.mapLeaves f g :: mapLeavesEach f g rest

end

/-- The description that the frames of a description hold. -/
def clipped (d : Description) : Description := d.mapLeaves (min · Frame.maxCount) Location.clipped

/-- The description with nowhere in place of every location. -/
def withoutLocations (d : Description) : Description := d.mapLeaves id fun _ => .nowhere

variable {f f' : Nat → Nat} {g g' : Location → Location}

@[simp] theorem mapLeavesEach_eq (ds : List Description) :
    mapLeavesEach f g ds = ds.map (mapLeaves f g) := by
  induction ds with
  | nil => rfl
  | cons d rest ih => rw [mapLeavesEach, ih, List.map_cons]

theorem category?_mapLeaves (d : Description) : (d.mapLeaves f g).category? = d.category? := by
  cases d <;> simp only [mapLeaves, category?]

theorem frames_map_locations (hg : ∀ l, Frame.ofLocation (g l) = Frame.ofLocation (g' l))
    (l : Listing Location) :
    (l.map g).frames Frame.ofLocation = (l.map g').frames Frame.ofLocation := by
  obtain ⟨presence, items⟩ := l
  have hitems : ∀ item : Slot Location, Slot.frames Frame.ofLocation (item.map g) =
      Slot.frames Frame.ofLocation (item.map g') := by
    intro item
    cases item with
    | error d => rfl
    | ok location => exact hg location
  simp only [Listing.frames, Listing.map, List.length_map, List.flatMap_map, hitems]

/-- Leaves with the same frames may stand for each other. -/
theorem frames_mapLeaves (hf : ∀ n, Frame.count (f n) = Frame.count (f' n))
    (hg : ∀ l, Frame.ofLocation (g l) = Frame.ofLocation (g' l)) (d : Description) :
    (d.mapLeaves f g).frames = (d.mapLeaves f' g').frames := by
  have hparts : ∀ ds : List Description,
      (∀ d ∈ ds, (d.mapLeaves f g).frames = (d.mapLeaves f' g').frames) →
      bodies (ds.map (mapLeaves f g)) = bodies (ds.map (mapLeaves f' g')) := by
    intro ds hds
    rw [bodies_eq, bodies_eq, List.flatMap_def, List.flatMap_def, List.map_map, List.map_map]
    exact congrArg List.flatten (List.map_congr_left hds)
  have hwhole : ∀ d : Description, (d.mapLeaves f g).body = (d.mapLeaves f' g').body →
      (d.mapLeaves f g).frames = (d.mapLeaves f' g').frames := by
    intro d hbody
    simp only [frames, withKind, category?_mapLeaves, hbody]
  induction d with
  | unreadable _ | unflagged _ | global | typeParameterOrdinal _ _ => simp only [mapLeaves]
  | nameSpace _ _ ih | pointerType _ ih | typeParameter _ _ ih | field _ _ ih | parameter _ _ ih
  | localVariable _ _ _ ih =>
      refine hwhole _ ?_
      simp only [mapLeaves, body, withKind_body, ih]
  | namedType _ _ _ _ arguments ih iharguments | method _ _ _ _ arguments ih iharguments
  | property _ _ _ arguments ih iharguments =>
      refine hwhole _ ?_
      simp only [mapLeaves, body, withKind_body, ih, mapLeavesEach_eq, List.length_map,
        hparts _ iharguments]
  | arrayType _ rank ih =>
      refine hwhole _ ?_
      simp only [mapLeaves, body, withKind_body, ih]
      cases rank with
      | error d => rfl
      | ok n => simp only [Except.map, Slot.frames, Frame.ofCount, hf]
  | tupleType _ types _ _ ih | anonymousType _ types _ _ _ ih =>
      refine hwhole _ ?_
      simp only [mapLeaves, body, mapLeavesEach_eq, List.length_map, hparts _ ih,
        frames_map_locations hg]

theorem mapLeaves_mapLeaves (d : Description) :
    (d.mapLeaves f g).mapLeaves f' g' = d.mapLeaves (f' ∘ f) (g' ∘ g) := by
  have hslot : ∀ {α β γ : Type} (f : α → β) (f' : β → γ) (slot : Slot α),
      (slot.map f).map f' = slot.map (f' ∘ f) := by
    intro α β γ f f' slot
    cases slot <;> rfl
  induction d with
  | unreadable _ | unflagged _ | global | typeParameterOrdinal _ _ => simp only [mapLeaves]
  | nameSpace _ _ ih | pointerType _ ih | typeParameter _ _ ih | field _ _ ih | parameter _ _ ih
  | localVariable _ _ _ ih => simp only [mapLeaves, ih]
  | arrayType _ _ ih => simp only [mapLeaves, ih, hslot]
  | namedType _ _ _ _ _ ih iheach | method _ _ _ _ _ ih iheach | property _ _ _ _ ih iheach =>
      simp only [mapLeaves, ih, mapLeavesEach_eq, List.map_map]
      congr 1
      exact List.map_congr_left iheach
  | tupleType _ _ _ _ ih | anonymousType _ _ _ _ _ ih =>
      simp only [mapLeaves, mapLeavesEach_eq, List.map_map, Listing.map]
      congr 1
      · exact List.map_congr_left ih
      · congr 1
        exact List.map_congr_left fun slot _ => hslot _ _ slot

theorem mapLeaves_id (d : Description) : d.mapLeaves id id = d := by
  have hslot : ∀ {α : Type} (slot : Slot α), slot.map id = slot := by
    intro α slot
    cases slot <;> rfl
  have heach : ∀ ds : List Description, (∀ d ∈ ds, d.mapLeaves id id = d) →
      ds.map (mapLeaves id id) = ds := by
    intro ds hds
    rw [List.map_congr_left hds, List.map_id']
  have hsites : ∀ l : Listing Location, l.map id = l := by
    intro l
    simp only [Listing.map, List.map_id', List.map_congr_left fun slot _ => hslot slot]
  induction d with
  | unreadable _ | unflagged _ | global | typeParameterOrdinal _ _ => simp only [mapLeaves]
  | nameSpace _ _ ih | pointerType _ ih | typeParameter _ _ ih | field _ _ ih | parameter _ _ ih
  | localVariable _ _ _ ih => simp only [mapLeaves, ih]
  | arrayType _ _ ih => simp only [mapLeaves, ih, hslot]
  | namedType _ _ _ _ _ ih iheach | method _ _ _ _ _ ih iheach | property _ _ _ _ ih iheach =>
      simp only [mapLeaves, ih, mapLeavesEach_eq, heach _ iheach]
  | tupleType _ _ _ _ ih | anonymousType _ _ _ _ _ ih =>
      simp only [mapLeaves, mapLeavesEach_eq, heach _ ih, hsites]

end Description

theorem Frame.count_clipped (n : Nat) : count (min n maxCount) = count n := by
  rw [count, count, Nat.min_assoc, Nat.min_self]

theorem Pos.clipped_fits (p : Pos) : p.clipped.Fits ∧ Frame.ofPos p.clipped = Frame.ofPos p := by
  have hfits : ∀ n, Frame.FitsCount (min n Frame.maxCount) := fun n => Nat.min_le_right _ _
  obtain ⟨h, hframes⟩ := Pos.fits_ofNat (hfits p.line.toNat) (hfits p.col.toNat)
    (hfits p.offset.toNat)
  rw [Frame.count_clipped, Frame.count_clipped, Frame.count_clipped] at hframes
  exact ⟨h, hframes⟩

theorem Location.clipped_fits (l : Location) : l.clipped.Fits := by
  cases l with
  | nowhere => trivial
  | source path span => exact ⟨span.start.clipped_fits.1, span.stop.clipped_fits.1⟩

theorem Location.ofLocation_clipped (l : Location) :
    Frame.ofLocation l.clipped = Frame.ofLocation l := by
  cases l with
  | nowhere => rfl
  | source path span =>
      simp only [clipped, Frame.ofLocation, span.start.clipped_fits.2, span.stop.clipped_fits.2]

namespace Description

/-- Frames hold the clipped description. -/
theorem frames_clipped (d : Description) : d.clipped.frames = d.frames := by
  have h : (d.mapLeaves (min · Frame.maxCount) Location.clipped).frames =
      (d.mapLeaves id id).frames :=
    frames_mapLeaves Frame.count_clipped Location.ofLocation_clipped d
  rw [clipped, h, mapLeaves_id]

/-- Locations apart, clipped descriptions have the frames that the descriptions have. -/
theorem frames_clipped_withoutLocations (d : Description) :
    d.clipped.withoutLocations.frames = d.withoutLocations.frames := by
  rw [withoutLocations, withoutLocations, clipped, mapLeaves_mapLeaves]
  exact frames_mapLeaves Frame.count_clipped (fun _ => rfl) d

end Description
end Moniker
