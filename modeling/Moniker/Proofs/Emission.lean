import Moniker.Proofs.Breadth
import Moniker.Proofs.Grammar
import Moniker.Proofs.Growth
import Moniker.Proofs.Nesting

/-!
# Descriptions of symbols are keys

Whatever a compilation answers when it is asked for a container or a type, the frames that describe
one of its symbols are one segment of the grammar, nested as deeply as the description is. Numbers
past the largest that fits are written as that one, and no array is too long for its header, since
no list of an entry is longer than the table.
-/

namespace Moniker

namespace Grammar

theorem isCount (n : Nat) : IsCount (.count n) := by
  rw [← Frame.count_clipped]
  exact isCount_count (Nat.min_le_right _ _)

theorem isLocation (l : Location) : IsLocation (Frame.ofLocation l) :=
  isLocation_iff.mpr ⟨l.clipped, l.ofLocation_clipped.symm, l.clipped_fits⟩

theorem admits_ofLength {α : Type} {elements : List (List Frame)} {as : List α}
    (hlength : elements.length = as.length) (hsize : as.length < UInt32.size) :
    Admits (.ofLength as.length) elements := by
  refine ⟨?_, hlength ▸ hsize⟩
  rw [hlength]
  by_cases hzero : as.length = 0
  · rw [hzero]
    rfl
  · simp [Presence.ofLength, Presence.admits, hzero]

/-- The array of some values has a header that fits it. -/
theorem isArray_ofItems {α : Type} {values : List α} {write : α → List Frame}
    {element : List Frame → Prop} (h : ∀ a ∈ values, element (write a))
    (hsize : values.length < UInt32.size) :
    IsArray element ((Listing.ofItems? (some values)).frames write) := by
  refine ⟨.ofLength values.length, values.map write, ?_, fun e he => ?_, ?_⟩
  · exact admits_ofLength (by rw [List.length_map]) hsize
  · obtain ⟨a, ha, rfl⟩ := List.mem_map.mp he
    exact h a ha
  · simp only [Listing.frames, Listing.ofItems?, Frame.ofHeader, Slot.frames,
      Presence.ofItems?, array,
      Option.getD_some, List.length_map, Frame.header_eq hsize, List.flatMap_def, List.map_map]
    rfl

/-- A header and segments that fit it. -/
theorem frames_array {presence : Presence} {ds : List Description}
    (hsize : ds.length < UInt32.size) :
    Frame.ofHeader (.ok presence) ds.length ++ Description.bodies ds =
      array presence (ds.map Description.frames) := by
  rw [Description.bodies_eq]
  simp [Frame.ofHeader, Slot.frames, array, Frame.header_eq hsize, List.flatMap_def]

end Grammar

namespace Compilation

variable {c : Compilation} {methods : List SymbolId} {s : SymbolId} {n : Nat}

theorem length_membersAt_le (kind : SymbolKind) (s : SymbolId) :
    (c.membersAt kind s).length ≤ (c.entry s).breadth := by
  have hfilter : (c.membersAt kind s).length ≤ (c.entry s).members.length :=
    List.length_filter_le _ _
  simp only [Symbol.breadth]
  omega

theorem length_signatureAt_le (s : SymbolId) : (c.signatureAt s).length ≤ (c.entry s).breadth := by
  rw [signatureAt, List.length_map]
  simp only [Symbol.breadth]
  omega

theorem length_typeArguments_le (s : SymbolId) :
    (c.entry s).typeArguments.length ≤ (c.entry s).breadth := by
  simp only [Symbol.breadth]
  omega

open Grammar Description

section Segments

attribute [local simp] assembledAt frames withKind category? body Slot.frames Frame.ofName
  Frame.ofCount

variable {d : Description} {ds : List Description}

theorem derives_map (h : ∀ d ∈ ds, Derives n d.frames) :
    ∀ segment ∈ ds.map frames, Derives n segment := by
  intro segment hsegment
  obtain ⟨d, hd, rfl⟩ := List.mem_map.mp hsegment
  exact h d hd

/-- An instance of a generic type lists its arguments, and its definition lists none. -/
theorem derives_namedType (hbreadth : (c.entry s).breadth < UInt32.size)
    (hlength : ds.length =
      if c.definitionAt s = s then 0 else (c.entry s).typeArguments.length)
    (hd : Derives n d.frames) (hds : ∀ d ∈ ds, Derives n d.frames) :
    Derives (n + 1) (c.assembledAt methods s .namedType (d :: ds)).frames := by
  have harguments := Nat.lt_of_le_of_lt (length_typeArguments_le s) hbreadth
  have hlt : ds.length < UInt32.size := by
    rw [hlength]
    split
    · exact Nat.zero_lt_succ _
    · exact harguments
  have hadmits : Admits (if c.definitionAt s = s then .absent
      else .ofLength (c.entry s).typeArguments.length) (ds.map frames) := by
    split
    · next hself =>
        rw [if_pos hself] at hlength
        rw [List.length_eq_zero_iff.mp hlength]
        exact ⟨rfl, Nat.zero_lt_succ _⟩
    · next hself =>
        rw [if_neg hself] at hlength
        exact admits_ofLength (by rw [List.length_map, hlength]) harguments
  refine (Derives.namedType (c.entry (c.definitionAt s)).name hd
    (isCount (c.entry (c.definitionAt s)).typeParameters.length) hadmits (derives_map hds)).congr ?_
  rw [← frames_array hlt]
  simp

theorem derives_tupleType (hbreadth : (c.entry s).breadth < UInt32.size)
    (hlength : ds.length = (c.memberTypesAt .field s).length) (hds : ∀ d ∈ ds, Derives n d.frames) :
    Derives (n + 1) (c.assembledAt methods s .tupleType ds).frames := by
  have hlt := Nat.lt_of_le_of_lt (length_membersAt_le .field s) hbreadth
  have hadmits : Admits (.ofLength (c.memberTypesAt .field s).length) (ds.map frames) :=
    admits_ofLength (by rw [List.length_map, hlength]) (by rwa [memberTypesAt, List.length_map])
  have hnames : IsArray IsText ((Listing.ofItems? (some (c.elementNamesAt s))).frames fun name =>
      [.text name]) :=
    isArray_ofItems (fun name _ => ⟨name, rfl⟩) (by rwa [elementNamesAt, List.length_map])
  have hlocations : IsArray IsLocation
      ((Listing.ofItems? (some ((c.membersAt .field s).map c.locationAt))).frames
        Frame.ofLocation) :=
    isArray_ofItems (fun l _ => isLocation l) (by rwa [List.length_map])
  refine (Derives.tupleType hadmits (derives_map hds) hnames hlocations).congr ?_
  rw [memberTypesAt, List.length_map] at hlength
  rw [← frames_array (hlength ▸ hlt)]
  simp

theorem derives_anonymousType (hbreadth : (c.entry s).breadth < UInt32.size)
    (hlength : ds.length = (c.memberTypesAt .property s).length)
    (hds : ∀ d ∈ ds, Derives n d.frames) :
    Derives (n + 1) (c.assembledAt methods s .anonymousType ds).frames := by
  have hlt := Nat.lt_of_le_of_lt (length_membersAt_le .property s) hbreadth
  have hadmits : Admits (.ofLength (c.memberTypesAt .property s).length) (ds.map frames) :=
    admits_ofLength (by rw [List.length_map, hlength]) (by rwa [memberTypesAt, List.length_map])
  have hnames : IsArray IsText
      ((Listing.ofItems? (some ((c.propertyNamesAt s).map some))).frames fun name =>
        [.text name]) :=
    isArray_ofItems (fun name _ => ⟨name, rfl⟩)
      (by rwa [List.length_map, propertyNamesAt, List.length_map])
  have hreadOnly : IsArray IsBool ((Listing.ofItems? (some (c.readOnlyAt s))).frames fun b =>
      [.bool b]) :=
    isArray_ofItems (fun b _ => ⟨b, rfl⟩) (by rwa [readOnlyAt, List.length_map])
  have hlocations : IsArray IsLocation
      ((Listing.ofItems? (some ((c.membersAt .property s).map c.locationAt))).frames
        Frame.ofLocation) :=
    isArray_ofItems (fun l _ => isLocation l) (by rwa [List.length_map])
  refine (Derives.anonymousType hadmits (derives_map hds) hnames hreadOnly hlocations).congr ?_
  rw [memberTypesAt, List.length_map] at hlength
  rw [← frames_array (hlength ▸ hlt)]
  simp

theorem derives_property (hbreadth : (c.entry s).breadth < UInt32.size)
    (hlength : ds.length = (c.signatureAt s).length) (hd : Derives n d.frames)
    (hds : ∀ d ∈ ds, Derives n d.frames) :
    Derives (n + 1) (c.assembledAt methods s .property (d :: ds)).frames := by
  have hlt := Nat.lt_of_le_of_lt (length_signatureAt_le s) hbreadth
  have hadmits : Admits (.ofLength (c.signatureAt s).length) (ds.map frames) :=
    admits_ofLength (by rw [List.length_map, hlength]) hlt
  refine (Derives.property (c.entry s).name hd hadmits (derives_map hds)).congr ?_
  rw [← frames_array (hlength ▸ hlt)]
  simp

theorem derives_method (hbreadth : (c.entry s).breadth < UInt32.size)
    (hlength : ds.length = (c.signatureAt s).length) (hd : Derives n d.frames)
    (hds : ∀ d ∈ ds, Derives n d.frames) :
    Derives (n + 1) (c.assembledAt methods s .method (d :: ds)).frames := by
  have hlt := Nat.lt_of_le_of_lt (length_signatureAt_le s) hbreadth
  have hadmits : Admits (.ofLength (c.signatureAt s).length) (ds.map frames) :=
    admits_ofLength (by rw [List.length_map, hlength]) hlt
  refine (Derives.method (c.entry s).name hd (isCount (c.entry s).typeParameters.length) hadmits
    (derives_map hds)).congr ?_
  rw [← frames_array (hlength ▸ hlt)]
  simp

/-- The frames of a segment are derived if those of the segments inside it are. -/
theorem derives_assembledAt (hbreadth : (c.entry s).breadth < UInt32.size) {category : Category}
    (hlength : ds.length = (c.nestedAt methods s category).length)
    (h : ∀ d ∈ ds, Derives n d.frames) :
    Derives (n + 1) (c.assembledAt methods s category ds).frames := by
  cases category with
  | nameSpace =>
      cases ds with
      | nil => exact .global
      | cons container rest =>
          exact (Derives.nameSpace (c.entry s).name (h container (by simp))).congr (by simp)
  | namedType =>
      obtain ⟨container, arguments, rfl, hcount⟩ := exists_cons hlength
      refine derives_namedType hbreadth ?_ (h container (by simp)) fun d hd => h d (by simp [hd])
      split at hcount
      · next hself => rw [hcount, if_pos hself, List.length_nil]
      · next hself => rw [hcount, if_neg hself, List.length_map]
  | arrayType =>
      obtain ⟨element, rest, rfl, hcount⟩ := exists_cons hlength
      exact (Derives.arrayType (h element (by simp)) (isCount (c.entry s).rank.toNat)).congr
        (by simp)
  | pointerType =>
      obtain ⟨pointee, rest, rfl, hcount⟩ := exists_cons hlength
      exact (Derives.pointerType (h pointee (by simp))).congr (by simp)
  | tupleType =>
      rw [nestedAt, List.length_map] at hlength
      exact derives_tupleType hbreadth hlength h
  | anonymousType =>
      rw [nestedAt, List.length_map] at hlength
      exact derives_anonymousType hbreadth hlength h
  | typeParameter =>
      obtain ⟨owner, rest, rfl, hcount⟩ := exists_cons hlength
      exact (Derives.typeParameter (c.entry s).name (h owner (by simp))).congr (by simp)
  | field =>
      obtain ⟨owner, rest, rfl, hcount⟩ := exists_cons hlength
      exact (Derives.field (c.entry s).name (h owner (by simp))).congr (by simp)
  | parameter =>
      obtain ⟨owner, rest, rfl, hcount⟩ := exists_cons hlength
      exact (Derives.parameter (c.entry s).name (h owner (by simp))).congr (by simp)
  | typeParameterOrdinal =>
      exact (Derives.typeParameterOrdinal (isCount (c.ordinalAt methods s).1)
        (isCount (c.ordinalAt methods s).2)).congr (by simp)
  | property =>
      obtain ⟨container, parameters, rfl, hcount⟩ := exists_cons hlength
      rw [List.length_map] at hcount
      exact derives_property hbreadth hcount (h container (by simp)) fun d hd => h d (by simp [hd])
  | method =>
      obtain ⟨container, parameters, rfl, hcount⟩ := exists_cons hlength
      rw [List.length_map] at hcount
      exact derives_method hbreadth hcount (h container (by simp)) fun d hd => h d (by simp [hd])
  | localVariable =>
      obtain ⟨owner, rest, rfl, hcount⟩ := exists_cons hlength
      exact (Derives.localVariable (c.entry s).name (h owner (by simp))
        (isCount (c.localOrdinalAt s))).congr (by simp)

end Segments

end Compilation

/-- The frames that describe a symbol are one segment, nested no more deeply than the description
was allowed to be. -/
theorem Description.derives_ofSymbolWithin {c : Compilation} (h : c.Closed) (hroomy : c.table.Roomy)
    (hsize : c.size < UInt32.size) {n : Nat} {methods : List SymbolId} {s : SymbolId}
    (hs : c.Issued s) {d : Description} (hd : ofSymbolWithin c n methods s = .ok d) :
    Grammar.Derives n d.frames := by
  induction n generalizing methods s d with
  | zero => cases hd
  | succ n ih =>
      obtain ⟨ds, hds, rfl⟩ := (ofSymbolWithin_eq_ok h hs).mp hd
      refine Compilation.derives_assembledAt (Nat.lt_of_le_of_lt (hroomy s hs) hsize)
        hds.length_eq.symm fun d' hd' => ?_
      obtain ⟨p, hp, hd'⟩ := exists_left hds hd'
      exact ih (h.issued_nestedAt hs hp) hd'

end Moniker
