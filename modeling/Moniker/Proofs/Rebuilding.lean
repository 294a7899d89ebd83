import Moniker.Proofs.Depths
import Moniker.Proofs.Emission
import Moniker.Proofs.Independent
import Moniker.Proofs.Limits
import Moniker.Proofs.Programs
import Moniker.Proofs.Reconciling

/-!
# Rebuilding types from their keys

The key of an array, pointer, tuple or anonymous type holds its shape, and to resolve the key is to
ask for that shape over the types that the parts have resolved to. What is asked for is the shape as
frames hold it (`Shape.recorded`): counts are clipped, and a name that is empty has become no name.
So that is the shape of the type that is found (`Key.rebuilds`), whatever the key was made from.
-/

namespace Moniker

open List

/-! ## Lists -/

theorem map_eq_self_iff {α : Type} {f : α → α} {as : List α} :
    as.map f = as ↔ ∀ a ∈ as, f a = a := by
  have hsame := List.map_inj_left (l := as) (f := f) (g := id)
  rwa [List.map_id] at hsame

/-- Two lists that are related to the same one. -/
theorem forall₂_span {α β γ : Type} {R : α → β → Prop} {S : α → γ → Prop} {as : List α}
    {bs : List β} {cs : List γ} (h : Forall₂ R as bs) (h' : Forall₂ S as cs) :
    Forall₂ (fun b c => ∃ a, R a b ∧ S a c) bs cs := by
  induction h generalizing cs with
  | nil =>
      cases h'
      exact .nil
  | cons hr _ ih =>
      cases h' with
      | cons hs htail => exact .cons ⟨_, hr, hs⟩ (ih htail)

/-! ## What a key holds of a shape -/

namespace Shape

variable {shape shape' : Shape} {sites sites' : List Location} {parts parts' : List Description}

/-- The shape as frames hold it. -/
def recorded : Shape → Shape
  | array element rank => array element (UInt64.ofNat (min rank.toNat Frame.maxCount))
  | pointer pointee => pointer pointee
  | constructed definition arguments => constructed definition arguments
  | tuple types names => tuple types (names.map (·.filter (· != "")))
  | anonymous types names readOnly => anonymous types names readOnly

@[simp] theorem symbols_recorded (shape : Shape) : shape.recorded.symbols = shape.symbols := by
  cases shape <;> rfl

@[simp] theorem generic?_recorded (shape : Shape) : shape.recorded.generic? = shape.generic? := by
  cases shape <;> rfl

theorem Like.generic?_eq_none (h : shape.Like shape') (hgeneric : shape.generic? = none) :
    shape'.generic? = none := by
  cases h with
  | constructed hlength => cases hgeneric
  | array _ | pointer | tuple _ _ | anonymous _ _ _ => rfl

/-- Where the members of a type of the shape are, if it has any. -/
def places (sites : List Location) : Shape → List Location
  | tuple _ _ | anonymous _ _ _ => sites
  | array _ _ | pointer _ | constructed _ _ => []

theorem Like.places_eq (h : shape.Like shape') : shape'.places sites = shape.places sites := by
  cases h <;> rfl

@[simp] theorem places_recorded (shape : Shape) :
    shape.recorded.places sites = shape.places sites := by
  cases shape <;> rfl

theorem places_map (f : Location → Location) (shape : Shape) :
    shape.places (sites.map f) = (shape.places sites).map f := by
  cases shape <;> rfl

/-- Where a shape was let through once, a like one is let through as frames hold it, if there are as
many places and the cap admits it. -/
theorem check_recorded {t t' : SymbolTable} (h : shape.check t sites = .ok ())
    (hgeneric : shape.generic? = none) (hlike : shape.recorded.Like shape')
    (hplaces : sites'.length = sites.length)
    (hcap : shape.kind = .anonymousType → ∀ n, t'.maxAnonymousArity = some n →
      shape.symbols.length ≤ n) :
    shape'.check t' sites' = .ok () := by
  cases shape with
  | array element rank =>
      cases hlike
      rfl
  | pointer pointee =>
      cases hlike
      rfl
  | constructed definition arguments => cases hgeneric
  | tuple types names =>
      cases hlike with
      | tuple _ hlength =>
        obtain ⟨hnames, hsites, hmany, hnodup⟩ := checkTuple_eq_ok_iff.mp h
        refine checkTuple_eq_ok_iff.mpr ⟨?_, ?_, ?_, ?_⟩
        · rw [List.length_map, hnames, hlength]
        · rw [hplaces, hsites, hlength]
        · rwa [← hlength]
        · have hkept : (names.map (·.filter (· != ""))).filterMap id =
              (names.filterMap id).filter (· != "") := by
            rw [List.filterMap_map, List.filter_filterMap]
            rfl
          rw [hkept]
          exact hnodup.filter _
  | anonymous types names readOnly =>
      cases hlike with
      | anonymous _ _ hlength =>
        obtain ⟨hnames, hreadOnly, hsites, -, hnamed, hnodup⟩ := checkAnonymous_eq_ok_iff.mp h
        refine checkAnonymous_eq_ok_iff.mpr ⟨?_, ?_, ?_, ?_, hnamed, hnodup⟩
        · rw [hnames, hlength]
        · rw [hreadOnly, hlength]
        · rw [hplaces, hsites, hlength]
        · intro n hn
          rw [← hlength]
          exact hcap rfl n hn

/-- What describes a type of the shape, given what describes its symbols and where its members are.
A constructed type is described by what it is constructed from, and is left out here. -/
def description (sites : List Location) (parts : List Description) : Shape → Description
  | array _ rank => .arrayType (parts.headD .global) (.ok rank.toNat)
  | pointer _ => .pointerType (parts.headD .global)
  | constructed _ _ => .global
  | tuple types names =>
    .tupleType (.ok (.ofLength types.length)) parts (.ofValues names) (.ofValues sites)
  | anonymous types names readOnly =>
    .anonymousType (.ok (.ofLength types.length)) parts (.ofValues (names.map some))
      (.ofValues readOnly) (.ofValues sites)

/-- The frames depend on the frames of the parts only. -/
theorem frames_description_congr
    (h : parts.map Description.frames = parts'.map Description.frames) :
    (shape.description sites parts).frames = (shape.description sites parts').frames := by
  have hlength : parts.length = parts'.length := by
    simpa only [List.length_map] using congrArg List.length h
  have hbodies : Description.bodies parts = Description.bodies parts' := by
    rw [Description.bodies_eq, Description.bodies_eq, List.flatMap_def, List.flatMap_def, h]
  have hhead : (parts.headD .global).frames = (parts'.headD .global).frames := by
    cases parts <;> cases parts' <;> simp_all
  have hwhole : ∀ d d' : Description, d.category? = d'.category? → d.body = d'.body →
      d.frames = d'.frames := by
    intro d d' hcategory hbody
    rw [Description.frames, Description.frames, Description.withKind, Description.withKind,
      hcategory, hbody]
  cases shape with
  | array element rank =>
      refine hwhole _ _ rfl ?_
      simp only [description, Description.body, Description.withKind_body, hhead]
  | pointer pointee =>
      refine hwhole _ _ rfl ?_
      simp only [description, Description.body, Description.withKind_body, hhead]
  | constructed definition arguments => rfl
  | tuple types names =>
      refine hwhole _ _ rfl ?_
      simp only [description, Description.body, hlength, hbodies]
  | anonymous types names readOnly =>
      refine hwhole _ _ rfl ?_
      simp only [description, Description.body, hlength, hbodies]

/-- Frames can hold what describes a shape that was let through, in as far as they can hold the
parts. -/
theorem shaped_description {t : SymbolTable} {n : Nat} (h : shape.check t sites = .ok ())
    (hgeneric : shape.generic? = none) (hlength : parts.length = shape.symbols.length)
    (hsize : shape.symbols.length < UInt32.size) (hparts : ∀ d ∈ parts, d.Shaped n) :
    (shape.recorded.description (sites.map Location.clipped) parts).Shaped (n + 1) := by
  have hhead : parts.length = 1 → (parts.headD .global).Shaped n := by
    intro hone
    obtain ⟨d, rfl⟩ := List.length_eq_one_iff.mp hone
    exact hparts d (by simp)
  have hplaces : sites.length < UInt32.size →
      (Listing.ofValues (sites.map Location.clipped)).Shaped Location.Fits := by
    intro hfew
    refine Description.shaped_ofValues (by rwa [List.length_map]) fun l hl => ?_
    obtain ⟨l, -, rfl⟩ := List.mem_map.mp hl
    exact l.clipped_fits
  cases shape with
  | array element rank =>
      refine .arrayType (hhead hlength) ?_
      show (UInt64.ofNat (min rank.toNat Frame.maxCount)).toNat ≤ Frame.maxCount
      rw [Frame.toNat_ofNat_min]
      exact Nat.min_le_right _ _
  | pointer pointee => exact .pointerType (hhead hlength)
  | constructed definition arguments => cases hgeneric
  | tuple types names =>
      obtain ⟨hnames, hsites, -, -⟩ := checkTuple_eq_ok_iff.mp h
      refine .tupleType (Description.fitsHeader_each hlength hsize) hparts
        (Description.shaped_ofValues ?_ fun _ _ => trivial) (hplaces ?_)
      · rw [List.length_map, hnames]
        exact hsize
      · rw [hsites]
        exact hsize
  | anonymous types names readOnly =>
      obtain ⟨hnames, hreadOnly, hsites, -, -, -⟩ := checkAnonymous_eq_ok_iff.mp h
      refine .anonymousType (Description.fitsHeader_each hlength hsize) hparts
        (Description.shaped_ofValues ?_ fun _ _ => trivial)
        (Description.shaped_ofValues ?_ fun _ _ => trivial) (hplaces ?_)
      · rw [List.length_map, hnames]
        exact hsize
      · rw [hreadOnly]
        exact hsize
      · rw [hsites]
        exact hsize

end Shape

/-! ## What describes a type on record -/

namespace Compilation

/-- Where the members of a type are, in order. -/
def placesAt (c : Compilation) (s : SymbolId) : List Location :=
  (c.entry s).members.map c.locationAt

/-- Clipping a location does not move it to another file. -/
theorem accept_clipped {c : Compilation} {l : Location} (h : c.accept l = .ok l) :
    c.accept l.clipped = .ok l.clipped := by
  cases l with
  | nowhere => rfl
  | source path span =>
      rw [accept] at h
      rw [Location.clipped, accept]
      split at h
      · next hfile => rw [if_pos hfile]
      · cases h

/-- An element whose name is empty is described as one without a name. -/
theorem spelled_eq_filter (name : Option String) :
    (if (name.getD "").isEmpty then none else some (name.getD "")) = name.filter (· != "") := by
  cases name with
  | none => rfl
  | some name =>
      by_cases hempty : name = ""
      · subst hempty
        rfl
      · simp [Option.filter, hempty]

section Recorded

variable {c : Compilation} {shape : Shape} {s : SymbolId} {sites : List Location}
  (h : c.table.Answers Symbol.Structural shape s sites) (hgeneric : shape.generic? = none)
include h hgeneric

theorem structural_of_answers : Symbol.Structural (c.entry s) := by
  refine (h.abiding_iff Symbol.Structural).mpr ?_
  cases shape with
  | constructed definition arguments => cases hgeneric
  | array _ _ | pointer _ | tuple _ _ | anonymous _ _ _ => rfl

variable {kind : SymbolKind} (hkind : ∀ x ∈ shape.fields sites, x.kind = kind)
include hkind

/-- What the members of a type say, which are all of one kind. -/
theorem map_membersAt {α : Type} (f : Symbol → α) (hlasting : ∀ x, f x.lasting = f x)
    (hcontainer : ∀ x p, f { x with container := p } = f x) :
    (c.membersAt kind s).map (fun m => f (c.entry m)) = (shape.fields sites).map f := by
  have hmap := fun {α : Type} => h.map_members (α := α) (structural_of_answers h hgeneric)
  have hall : c.membersAt kind s = (c.entry s).members := by
    refine membersAt_of_kind fun m hm => ?_
    have hmem : (c.entry m).kind ∈ (c.entry s).members.map fun m => (c.entry m).kind :=
      List.mem_map.mpr ⟨m, hm, rfl⟩
    rw [hmap Symbol.kind (fun _ => rfl) fun _ _ => rfl] at hmem
    obtain ⟨x, hx, hxkind⟩ := List.mem_map.mp hmem
    exact hxkind ▸ hkind x hx
  rw [hall]
  exact hmap f hlasting hcontainer

omit hkind in
/-- The places on record are those of the members. -/
theorem placesAt_of_answers :
    c.table.Answers Symbol.Structural shape s (c.placesAt s) ∧
      c.placesAt s = shape.places sites := by
  have hmap : c.placesAt s = (shape.fields sites).map (·.locations.headD .nowhere) :=
    h.map_members (structural_of_answers h hgeneric) (·.locations.headD .nowhere) (fun _ => rfl)
      fun _ _ => rfl
  obtain ⟨t, hcheck⟩ := h.checked
  cases shape with
  | array element rank | pointer pointee =>
      exact ⟨⟨h.issued, h.entry, h.generic, ⟨t, rfl⟩, h.member, h.members⟩, hmap⟩
  | constructed definition arguments => cases hgeneric
  | tuple types names =>
      obtain ⟨hnames, hsites⟩ := SymbolTable.lengths_of_checkTuple hcheck
      have hsame := hmap.trans (SymbolTable.tupleFields_rest hnames hsites).2
      exact ⟨by rwa [hsame], hsame⟩
  | anonymous types names readOnly =>
      obtain ⟨hnames, hreadOnly, hsites⟩ := SymbolTable.lengths_of_checkAnonymous hcheck
      have hsame := hmap.trans (SymbolTable.anonymousProperties_places hnames hreadOnly hsites)
      exact ⟨by rwa [hsame], hsame⟩

theorem memberTypesAt_of_answers (hplain : c.Plain) {types : List SymbolId}
    (htypes : (shape.fields sites).map (·.type) = types.map some) :
    c.memberTypesAt kind s = types := by
  refine hplain.map_typeAt ?_
  rw [map_membersAt h hgeneric hkind Symbol.type (fun _ => rfl) fun _ _ => rfl, htypes]

theorem map_locationAt_of_answers
    (hplaces : (shape.fields sites).map (·.locations.headD .nowhere) = sites) :
    (c.membersAt kind s).map c.locationAt = sites := by
  have hmap := map_membersAt h hgeneric hkind (·.locations.headD .nowhere) (fun _ => rfl) fun _ _ =>
    rfl
  exact hmap.trans hplaces

end Recorded

section Described

variable {c : Compilation} {shape : Shape} {s : SymbolId} {sites : List Location}

theorem kind_of_answers (h : c.table.Answers Symbol.Structural shape s sites) :
    (c.entry s).kind = shape.kind := by
  rw [← shape.kind_head c.table, ← h.entry]
  rfl

variable (hplain : c.Plain)
include hplain

/-- What a tuple type on record says of its elements. It does not tell empty names from no names. -/
theorem tuple_of_answers {types : List SymbolId} {names : List (Option String)}
    (h : c.table.Answers Symbol.Structural (.tuple types names) s sites) :
    c.memberTypesAt .field s = types ∧ c.elementNamesAt s = names.map (·.filter (· != "")) ∧
      (c.membersAt .field s).map c.locationAt = sites := by
  obtain ⟨t, hcheck⟩ := h.checked
  obtain ⟨hnames, hsites⟩ := SymbolTable.lengths_of_checkTuple hcheck
  obtain ⟨htyped, hnamed⟩ := SymbolTable.map_tupleFields types names sites hnames hsites
  obtain ⟨-, hplaced⟩ := SymbolTable.tupleFields_rest hnames hsites
  have hfields : ∀ x ∈ (Shape.tuple types names).fields sites, x.kind = .field := fun x hx =>
    (SymbolTable.mem_tupleFields x hx).2
  have helements : c.elementNamesAt s = names.map (·.filter (· != "")) := by
    have hmap := congrArg (List.map fun name : String => if name.isEmpty then none else some name)
      ((map_membersAt h rfl hfields Symbol.name (fun _ => rfl) fun _ _ => rfl).trans hnamed)
    rw [List.map_map, List.map_map] at hmap
    exact hmap.trans (List.map_congr_left fun name _ => spelled_eq_filter name)
  exact ⟨memberTypesAt_of_answers h rfl hfields hplain htyped, helements,
    map_locationAt_of_answers h rfl hfields hplaced⟩

/-- What an anonymous type on record says of its properties. -/
theorem anonymous_of_answers {types : List SymbolId} {names : List String} {readOnly : List Bool}
    (h : c.table.Answers Symbol.Structural (.anonymous types names readOnly) s sites) :
    c.memberTypesAt .property s = types ∧ c.propertyNamesAt s = names ∧ c.readOnlyAt s = readOnly ∧
      (c.membersAt .property s).map c.locationAt = sites := by
  obtain ⟨t, hcheck⟩ := h.checked
  obtain ⟨hnames, hreadOnly, hsites⟩ := SymbolTable.lengths_of_checkAnonymous hcheck
  obtain ⟨htyped, hnamed, hfixed⟩ :=
    SymbolTable.map_anonymousProperties types names readOnly sites hnames hreadOnly hsites
  have hplaced := SymbolTable.anonymousProperties_places hnames hreadOnly hsites
  have hproperties : ∀ x ∈ (Shape.anonymous types names readOnly).fields sites,
      x.kind = .property :=
    fun x hx => (SymbolTable.mem_anonymousProperties x hx).2
  exact ⟨memberTypesAt_of_answers h rfl hproperties hplain htyped,
    (map_membersAt h rfl hproperties Symbol.name (fun _ => rfl) fun _ _ => rfl).trans hnamed,
    (map_membersAt h rfl hproperties Symbol.readOnly (fun _ => rfl) fun _ _ => rfl).trans hfixed,
    map_locationAt_of_answers h rfl hproperties hplaced⟩

variable (h : c.table.Answers Symbol.Structural shape s sites) (hgeneric : shape.generic? = none)
include h hgeneric

/-- A type on record has at most as many parts as there are symbols. -/
theorem length_symbols_of_answers (hroomy : c.table.Roomy) (hsize : c.size < UInt32.size) :
    shape.symbols.length < UInt32.size := by
  have hbreadth : (c.entry s).breadth ≤ c.size := hroomy s h.issued
  have hmembers : ∀ kind : SymbolKind, (c.memberTypesAt kind s).length ≤ c.size := by
    intro kind
    rw [memberTypesAt, List.length_map]
    exact (length_membersAt_le kind s).trans hbreadth
  cases shape with
  | array element rank | pointer pointee => exact (by decide : 1 < UInt32.size)
  | constructed definition arguments => cases hgeneric
  | tuple types names =>
      obtain ⟨rfl, -, -⟩ := tuple_of_answers hplain h
      exact (hmembers .field).trans_lt hsize
  | anonymous types names readOnly =>
      obtain ⟨rfl, -, -, -⟩ := anonymous_of_answers hplain h
      exact (hmembers .property).trans_lt hsize

/-- The segment of a type has those of the symbols of its shape in it, and the frames of the
shape. -/
theorem described_of_answers : Description.inner c [] s = shape.symbols.map ([], ·) ∧
    ∀ parts, (c.assembledAt [] s (c.categoryAt [] s) parts).frames =
      (shape.recorded.description (sites.map Location.clipped) parts).frames := by
  have hkind := kind_of_answers h
  have htype : c.typeAt s = (shape.head c.table).type.getD c.universal := by
    rw [hplain.typeAt_eq, ← h.entry]
    rfl
  have hplaces : (Listing.ofItems? (some sites)).frames Frame.ofLocation =
      (Listing.ofValues (sites.map Location.clipped)).frames Frame.ofLocation := by
    rw [← Description.map_ofItems, Description.frames_map_locations Location.ofLocation_clipped,
      Description.map_ofItems, List.map_id']
    rfl
  cases shape with
  | array element rank =>
      have hcategory : c.categoryAt [] s = .arrayType := by
        rw [categoryAt, hkind]
        rfl
      have hrank : (c.entry s).rank = rank := congrArg Symbol.rank h.entry
      rw [Description.inner, hcategory]
      refine ⟨by rw [nestedAt, htype]; rfl, fun parts => ?_⟩
      simp only [assembledAt, hrank, Shape.recorded, Shape.description, Description.frames,
        Description.withKind, Description.category?, Description.body, Slot.frames, Frame.ofCount,
        Frame.toNat_ofNat_min, Frame.count_clipped]
  | pointer pointee =>
      have hcategory : c.categoryAt [] s = .pointerType := by
        rw [categoryAt, hkind]
        rfl
      rw [Description.inner, hcategory]
      exact ⟨by rw [nestedAt, htype]; rfl, fun parts => rfl⟩
  | constructed definition arguments => cases hgeneric
  | tuple types names =>
      have hcategory : c.categoryAt [] s = .tupleType := by
        rw [categoryAt, hkind]
        rfl
      obtain ⟨htypes, helements, hplaced⟩ := tuple_of_answers hplain h
      rw [Description.inner, hcategory]
      refine ⟨by rw [nestedAt, htypes]; rfl, fun parts => ?_⟩
      simp only [assembledAt, htypes, helements, hplaced, Shape.recorded, Shape.description,
        Description.frames, Description.withKind, Description.category?, Description.body, hplaces]
      rfl
  | anonymous types names readOnly =>
      have hcategory : c.categoryAt [] s = .anonymousType := by
        rw [categoryAt, hkind]
        rfl
      obtain ⟨htypes, helements, hflags, hplaced⟩ := anonymous_of_answers hplain h
      rw [Description.inner, hcategory]
      refine ⟨by rw [nestedAt, htypes]; rfl, fun parts => ?_⟩
      simp only [assembledAt, htypes, helements, hflags, hplaced, Shape.recorded, Shape.description,
        Description.frames, Description.withKind, Description.category?, Description.body, hplaces]
      rfl

end Described

end Compilation

/-! ## Programs of types -/

theorem SymbolTable.Asked.grows {t t' : SymbolTable} (h : t.Asked t') : t.Grows t' := by
  cases h with
  | same => exact .refl t
  | shape _ _ => exact grows_ask _ _ t

/-- Requests for types over symbols that a draft has make a draft. -/
theorem Draft.made_structural {d : Draft}
    (hmade : d.Made fun t r => r.Issued t ∧ r.Sparing Symbol.Structural t) (rs : List TypeRequest)
    (h : ∀ r ∈ rs, ∀ s ∈ r.symbols, d.table.Issued s) :
    ((rs.map Request.structural).foldl (fun d r => r.afterDraft d) d).Made fun t r =>
      r.Issued t ∧ r.Sparing Symbol.Structural t := by
  induction rs generalizing d with
  | nil => exact hmade
  | cons r rest ih =>
    have hr : (Request.structural r).Issued d.table := h r (by simp)
    have hsparing : (Request.structural r).Sparing Symbol.Structural d.table := by
      rintro owner ⟨⟩
    refine ih (hmade.request ⟨hr, hsparing⟩ (Request.run_eq _ hr)) fun r' hr' s hs => ?_
    exact (r.asked_after hr).grows.issued (h r' (by simp [hr']) s hs)

/-! ## Locating the parts -/

namespace Description

open Compilation

variable {o : ResolveOptions} {c₀ c : Compilation}

/-- A description that comes to one symbol in a compilation comes to one in every later state, and
it is the same one if the compilation knew it. -/
theorem locate_symbol {d : Description} {s : SymbolId} (h : c₀.Branches c₀ c)
    (hsymbol : (locate o d [] c₀).1 = .ok (.symbol s)) :
    ∃ s', (locate o d [] c).1 = .ok (.symbol s') ∧ (c₀.Issued s → s' = s) ∧
      c₀.Branches c₀ (locate o d [] c).2 := by
  have hmatched := locate_matched o c₀ d h .nil
  have hrelated := hmatched.related
  rw [hsymbol] at hrelated
  generalize houtcome : (locate o d [] c).1 = outcome at hrelated
  cases hrelated with
  | ok hrelated =>
    cases hrelated with
    | symbol htwin =>
      refine ⟨_, rfl, fun hissued => ?_, h.stem, h.left, hmatched.branches.right⟩
      exact htwin.eq_of_old hmatched.branches.left.traces hmatched.branches.right.traces
        (.inl hissued)

/-- So do descriptions one after the other. -/
theorem locateEach_symbols {ds : List Description} {symbols : List SymbolId} (h : c₀.Branches c₀ c)
    (hunique : Forall₂ (fun d s => (locate o d [] c₀).1 = .ok (.symbol s)) ds symbols) :
    ∃ symbols', (locateEach o ds [] c).1 = symbols'.map .ok ∧
      Forall₂ (fun s s' => c₀.Issued s → s' = s) symbols symbols' ∧
      c₀.Branches c₀ (locateEach o ds [] c).2 := by
  induction hunique generalizing c with
  | nil => exact ⟨[], rfl, .nil, h⟩
  | @cons d s ds symbols hhead htail ih =>
      obtain ⟨s', hlocate, hsame, hbranches⟩ := locate_symbol h hhead
      obtain ⟨symbols', hlocates, heach, hlater⟩ := ih hbranches
      refine ⟨s' :: symbols', ?_, .cons hsame heach, hlater⟩
      simp only [locateEach, hlocate, hlocates]
      rfl

/-- Where each part comes to one symbol in a compilation, what describes a shape comes in every
later state to the answer for the shape over the symbols that the parts come to there. It is given
once the parts have been located, if all such shapes are let through. -/
theorem locate_description {shape : Shape} {parts : List Description} {symbols : List SymbolId}
    {places : List Location} (h : c₀.Branches c₀ c) (hgeneric : shape.generic? = none)
    (hlength : parts.length = shape.symbols.length)
    (hunique : Forall₂ (fun d s => (locate o d [] c₀).1 = .ok (.symbol s)) parts symbols)
    (haccepts : c₀.AcceptsAll places)
    (hcheck : ∀ (shape' : Shape) (t : SymbolTable), shape.Like shape' →
      t.maxAnonymousArity = c₀.table.maxAnonymousArity → shape'.check t places = .ok ()) :
    ∃ (shape' : Shape) (c₁ : Compilation), shape.Like shape' ∧
      (locateEach o parts [] c).1 = shape'.symbols.map .ok ∧
      Forall₂ (fun s s' => c₀.Issued s → s' = s) symbols shape'.symbols ∧
      c₁.table = (locateEach o parts [] c).2.table ∧ shape'.check c₁.table places = .ok () ∧
      locate o (shape.description places parts) [] c =
        (.ok (.symbol (c₁.table.ask shape' places).1),
          { c₁ with table := (c₁.table.ask shape' places).2 }) := by
  obtain ⟨symbols', hlocates, heach, hbranches⟩ := locateEach_symbols h hunique
  have hgathered : gathered 0 (locateEach o parts [] c).1 = .ok symbols' :=
    gathered_eq_ok.mpr hlocates
  have hplaces : gathered 0 (places.map (locateEach o parts [] c).2.accept) = .ok places := by
    rw [hbranches.accept_eq]
    exact gathered_accept.mpr haccepts
  have hlimit : (locateEach o parts [] c).2.countRequest.table.maxAnonymousArity =
      c₀.table.maxAnonymousArity := hbranches.right.grows.table.limit
  have hparts : parts.length = symbols.length := hunique.length_eq
  have hitems : symbols'.length = shape.symbols.length := by
    rw [← heach.length_eq, ← hparts, hlength]
  cases shape with
  | array element rank =>
    obtain ⟨d, rfl⟩ := List.length_eq_one_iff.mp hlength
    cases hunique with
    | @cons _ s _ _ hsymbol hrest =>
      cases hrest
      obtain ⟨s', hlocate, hsame, -⟩ := locate_symbol h hsymbol
      refine ⟨.array s' rank, (locate o d [] c).2, .array rank, ?_, .cons hsame .nil, rfl, rfl, ?_⟩
      · rw [locateEach, hlocate]
        rfl
      · simp only [Shape.description, List.headD_cons, locate, hlocate, part_ok,
          Resolution.rebuilt, Slot.valueOr_ok, UInt64.ofNat_toNat]
        rfl
  | pointer pointee =>
    obtain ⟨d, rfl⟩ := List.length_eq_one_iff.mp hlength
    cases hunique with
    | @cons _ s _ _ hsymbol hrest =>
      cases hrest
      obtain ⟨s', hlocate, hsame, -⟩ := locate_symbol h hsymbol
      refine ⟨.pointer s', (locate o d [] c).2, .pointer, ?_, .cons hsame .nil, rfl, rfl, ?_⟩
      · rw [locateEach, hlocate]
        rfl
      · simp only [Shape.description, List.headD_cons, locate, hlocate, part_ok,
          Resolution.rebuilt]
        rfl
  | constructed definition arguments => cases hgeneric
  | tuple types names =>
    have hlike : (Shape.tuple types names).Like (.tuple symbols' names) := .tuple names hitems.symm
    refine ⟨_, (locateEach o parts [] c).2.countRequest, hlike, hlocates, heach, rfl,
      hcheck _ _ hlike hlimit, ?_⟩
    simp only [Shape.description, locate, hgathered, part_ok, Listing.values_ofValues, hplaces,
      Slot.valueOr_ok, tupleType_eq_ask, ask_of_check (hcheck _ _ hlike hlimit), Fallback.settle,
      Presence.isAbsent_ofLength]
    rfl
  | anonymous types names readOnly =>
    have hlike : (Shape.anonymous types names readOnly).Like (.anonymous symbols' names readOnly) :=
      .anonymous names readOnly hitems.symm
    have hnamed : (names.map some).map (·.getD "") = names := by
      rw [List.map_map]
      exact List.map_id _
    refine ⟨_, (locateEach o parts [] c).2.countRequest, hlike, hlocates, heach, rfl,
      hcheck _ _ hlike hlimit, ?_⟩
    simp only [Shape.description, locate, hgathered, part_ok, Listing.values_ofValues, hplaces,
      Slot.valueOr_ok, anonymousType_eq_ask, hnamed, ask_of_check (hcheck _ _ hlike hlimit),
      Fallback.settle, Presence.isAbsent_ofLength]
    rfl

end Description

/-! ## Resolving the key -/

namespace Key

open Compilation

/-- What keys come to one after the other, each resolved by itself, and the scene afterwards. -/
def resolveEach (o : ResolveOptions) : List Key → Scene → List (Except Halt Resolved) × Scene
  | [], scene => ([], scene)
  | k :: rest, scene =>
    let head := k.resolve o scene
    let tail := resolveEach o rest head.2
    (head.1 :: tail.1, tail.2)

/-- Resolving the keys of parts is locating the parts. -/
theorem resolveEach_of_frames {o : ResolveOptions} {n : Nat} {c₀ : Compilation} {scene : Scene}
    {keys : List Key} {parts : List Description} {symbols symbols' : List SymbolId}
    (h : c₀.Branches c₀ scene.compilation)
    (hparts : Forall₂ (fun k d => k = ofFrames d.frames ∧ d.Shaped n ∧ k.defect? o = none)
      keys parts)
    (hunique : Forall₂ (fun d s => (Description.locate o d [] c₀).1 = .ok (.symbol s)) parts
      symbols)
    (hlocates : (Description.locateEach o parts [] scene.compilation).1 = symbols'.map .ok) :
    (resolveEach o keys scene).1 = symbols'.map (fun a => .ok (.ok (.symbol a))) ∧
      (resolveEach o keys scene).2.compilation =
        (Description.locateEach o parts [] scene.compilation).2 := by
  induction hparts generalizing scene symbols symbols' with
  | nil =>
    obtain rfl : symbols' = [] := List.map_eq_nil_iff.mp hlocates.symm
    exact ⟨rfl, rfl⟩
  | @cons k d keys parts hpart hrest ih =>
    obtain ⟨rfl, hshaped, husable⟩ := hpart
    cases hunique with
    | cons hsymbol hunique =>
      obtain ⟨s, hlocate, -, hbranches⟩ := Description.locate_symbol h hsymbol
      obtain ⟨hresolve, hafter⟩ := resolve_of_frames hshaped rfl rfl h.right.closed husable
      rw [hlocate] at hresolve
      rw [Description.after] at hafter
      rw [Description.locateEach, hlocate] at hlocates
      cases symbols' with
      | nil => cases hlocates
      | cons s' symbols' =>
        obtain ⟨hhead, htail⟩ := List.cons.inj hlocates
        obtain rfl : s = s' := Except.ok.inj hhead
        obtain ⟨hresolves, hafters⟩ := ih (hafter ▸ hbranches) hunique (hafter ▸ htail)
        rw [hafter] at hafters
        exact ⟨by rw [resolveEach, hresolve, hresolves]; rfl, hafters⟩

section Rebuilt

variable {c : Compilation} {shape : Shape} {s : SymbolId} {keys : List Key}
  (hmade : c.Made fun t r => r.Issued t ∧ r.Sparing Symbol.Structural t)
  (hsize : c.size < UInt32.size)
  (hs : c.table.interned.lookup shape = some s) (hgeneric : shape.generic? = none)
  (hkeys : Forall₂ (fun e ke => ofSymbol c e = .ok ke) shape.symbols keys)
include hmade hs hgeneric

omit hmade hs hgeneric in
theorem recorded_of_lookup (hmade : c.Made fun t r => r.Issued t ∧ r.Sparing Symbol.Structural t)
    (hs : c.table.interned.lookup shape = some s) (hgeneric : shape.generic? = none) :
    (∀ e ∈ shape.symbols, c.Issued e) ∧
      c.table.Answers Symbol.Structural shape s (c.placesAt s) := by
  have hissued : c.Made fun t r => r.Issued t := hmade.mono fun _ _ hr => hr.1
  obtain ⟨sites, -, hanswers⟩ := hmade.faithful.answers shape s hs
  exact ⟨hissued.grounded shape s hs, (placesAt_of_answers hanswers hgeneric).1⟩

include hsize hkeys

/-- A type has a key if the symbols of its shape have, and their keys are in its key. -/
theorem exists_parts : ∃ (n : Nat) (parts : List Description),
    (shape.recorded.description ((c.placesAt s).map Location.clipped) parts).Shaped (n + 1) ∧
      Forall₂ (fun ke d => ke = ofFrames d.frames ∧ d.Shaped n) keys parts ∧
      ofSymbol c s = .ok (ofFrames
        (shape.recorded.description ((c.placesAt s).map Location.clipped) parts).frames) := by
  have hissued : c.Made fun t r => r.Issued t := hmade.mono fun _ _ hr => hr.1
  have hclosed := hissued.closed
  obtain ⟨-, hplain⟩ := hissued.table (fun _ _ hr => hr) (P := fun _ => True) trivial fun _ _ _ _ =>
    trivial
  obtain ⟨hsymbols, hanswers⟩ := recorded_of_lookup hmade hs hgeneric
  obtain ⟨hinner, hframes⟩ := described_of_answers hplain hanswers hgeneric
  obtain ⟨t, hcheck⟩ := hanswers.checked
  obtain ⟨n, hfinishes⟩ : ∃ n, Description.Finishes c n [] s := by
    refine finishes_of_inner hclosed hanswers.issued fun p hp => ?_
    rw [hinner] at hp
    obtain ⟨e, he, rfl⟩ := List.mem_map.mp hp
    obtain ⟨k, -, hk⟩ := exists_left hkeys.flip he
    obtain ⟨n, d, hd, -⟩ := (ofSymbol_eq_ok_iff hclosed (hsymbols e he)).mp hk
    exact ⟨n, d, hd⟩
  obtain ⟨d, hd⟩ := hfinishes.mono hclosed hanswers.issued (Nat.le_succ n)
  obtain ⟨ds, hds, rfl⟩ := (Description.ofSymbolWithin_eq_ok hclosed hanswers.issued).mp hd
  rw [hinner, forall₂_map_left_iff] at hds
  have hspan := forall₂_span ((forall₂_and_left _ _).mpr ⟨hsymbols, hds⟩) hkeys
  have hframed : Forall₂ (fun d ke => ke = ofFrames d.frames ∧ Grammar.Derives n d.frames) ds
      keys := by
    refine hspan.imp fun d ke hspan => ?_
    obtain ⟨e, ⟨he, hd⟩, hke⟩ := hspan
    have hd' := (ofSymbol_eq_ok_iff hclosed he).mpr ⟨n, d, hd, rfl⟩
    exact ⟨Except.ok.inj (hke.symm.trans hd'),
      Description.derives_ofSymbolWithin hclosed hissued.roomy hsize he hd⟩
  -- what the keys of the symbols hold takes the place of what describes the symbols
  obtain ⟨parts, hparts⟩ : ∃ parts : List Description,
      Forall₂ (fun ke d => ke = ofFrames d.frames ∧ d.Shaped n) keys parts := by
    refine exists_forall₂ fun ke hke => ?_
    obtain ⟨d, -, rfl, hderives⟩ := exists_left hframed hke
    obtain ⟨d', hshaped, hframes'⟩ := Grammar.exists_description hderives
    exact ⟨d', by rw [hframes'], hshaped⟩
  have hsame : ds.map Description.frames = parts.map Description.frames := by
    rw [← forall₂_eq_eq_eq, forall₂_map_left_iff, forall₂_map_right_iff]
    refine (forall₂_span hframed.flip hparts).imp fun d d' hspan => ?_
    obtain ⟨ke, ⟨hd, -⟩, hd', -⟩ := hspan
    exact congrArg Key.frames (hd.symm.trans hd')
  refine ⟨n, parts, ?_, hparts, ?_⟩
  · have hlength := hkeys.length_eq.trans hparts.length_eq
    refine Shape.shaped_description hcheck hgeneric hlength.symm
      (length_symbols_of_answers hplain hanswers hgeneric hissued.roomy hsize) fun d hd => ?_
    obtain ⟨ke, -, -, hshaped⟩ := exists_left hparts hd
    exact hshaped
  · refine (ofSymbol_eq_ok_iff hclosed hanswers.issued).mpr ⟨n + 1, _, hd, ?_⟩
    rw [hframes, Shape.frames_description_congr hsame]

/-- A type has a key if the symbols of its shape have. Where their keys come to one symbol each, its
key comes to one in every later state: to the answer for the shape that the frames hold, over the
symbols that the keys come to there one after the other. If the shape has no answer once these are
resolved, the members of the answer lie in the places that the frames hold. -/
theorem rebuilds : ∃ k depth, ofSymbol c s = .ok k ∧ (∀ n, Grammar.Derives n k.frames ↔ depth ≤ n) ∧
    ∀ (o : ResolveOptions) (scene later : Scene) (symbols : List SymbolId), o.cancelled = false →
      depth ≤ o.maxDepth.toNat → scene.compilation.Branches scene.compilation later.compilation →
      Forall₂ (fun ke a => (ke.resolve o scene).1 = .ok (.ok (.symbol a))) keys symbols →
      scene.compilation.AcceptsAll (c.placesAt s) →
      (shape.kind = .anonymousType → ∀ n, scene.compilation.table.maxAnonymousArity = some n →
        shape.symbols.length ≤ n) →
      ∃ (shape' : Shape) (a : SymbolId), shape.recorded.Like shape' ∧
        (resolveEach o keys later).1 = shape'.symbols.map (fun a => .ok (.ok (.symbol a))) ∧
        Forall₂ (fun a a' => scene.compilation.Issued a → a' = a) symbols shape'.symbols ∧
        (k.resolve o later).1 = .ok (.ok (.symbol a)) ∧
        (k.resolve o later).2.compilation.table.interned.lookup shape' = some a ∧
        ((resolveEach o keys later).2.compilation.table.interned.lookup shape' = none →
          (k.resolve o later).2.compilation.placesAt a = (c.placesAt s).map Location.clipped) := by
  obtain ⟨n, parts, hshaped, hparts, hk⟩ := exists_parts hmade hsize hs hgeneric hkeys
  obtain ⟨depth, hdepth⟩ := (Grammar.derives_frames hshaped).exists_depth
  refine ⟨_, depth, hk, hdepth, ?_⟩
  intro o scene later symbols hlive hle hbranches hsymbols haccepts hcap
  have hclosed := hbranches.stem.closed
  obtain ⟨-, hanswers⟩ := recorded_of_lookup hmade hs hgeneric
  obtain ⟨t, hcheck⟩ := hanswers.checked
  have hunique : Forall₂ (fun d a => (d.locate o [] scene.compilation).1 = .ok (.symbol a)) parts
      symbols := by
    refine (forall₂_span hparts hsymbols).imp fun d a hspan => ?_
    obtain ⟨ke, ⟨rfl, hshaped⟩, hresolve⟩ := hspan
    exact locate_of_resolve hshaped rfl rfl hclosed hresolve
  have husable : Forall₂ (fun ke d => ke = ofFrames d.frames ∧ d.Shaped n ∧ ke.defect? o = none)
      keys parts := by
    refine (forall₂_and_left _ _).mpr ⟨fun ke hke => ?_, hparts⟩ |>.imp fun ke d h =>
      ⟨h.2.1, h.2.2, h.1⟩
    obtain ⟨a, -, ha⟩ := exists_left hsymbols.flip hke
    obtain ⟨d, -, rfl, -⟩ := exists_left hparts.flip hke
    exact usable_of_ok rfl hclosed ha
  have haccepts' : scene.compilation.AcceptsAll ((c.placesAt s).map Location.clipped) := by
    intro l hl
    obtain ⟨site, hsite, rfl⟩ := List.mem_map.mp hl
    exact accept_clipped (haccepts site hsite)
  have hplain' : shape.recorded.generic? = none := by rw [Shape.generic?_recorded, hgeneric]
  have hlength := hkeys.length_eq.trans hparts.length_eq
  obtain ⟨shape', c₁, hlike, hlocates, heach, htable, hcheck', hlocate⟩ :=
    Description.locate_description hbranches hplain' (by rw [← hlength, Shape.symbols_recorded])
      hunique haccepts' fun shape' t hlike hlimit =>
        Shape.check_recorded hcheck hgeneric hlike (List.length_map _)
          fun hkind n hn => hcap hkind n (hlimit ▸ hn)
  obtain ⟨hresolves, hafters⟩ := resolveEach_of_frames hbranches husable hunique hlocates
  obtain ⟨hresolve, hafter⟩ := resolve_of_frames (o := o) (k := ofFrames
    (shape.recorded.description ((c.placesAt s).map Location.clipped) parts).frames)
    hshaped rfl rfl hbranches.right.closed ((defect?_eq_none_iff hlive).mpr ((hdepth _).mpr hle))
  rw [Description.after] at hafter
  rw [hlocate] at hresolve hafter
  rw [hafter, hafters, ← htable]
  refine ⟨shape', _, hlike, hresolves, heach, hresolve, SymbolTable.lookup_intern _ _ _,
    fun hnone => ?_⟩
  have hnew := SymbolTable.answers_ask (D := Symbol.Structural) hnone hcheck' fun g hg => by
    rw [hlike.generic?_eq_none hplain'] at hg
    cases hg
  have hanswer : (c₁.table.ask shape' ((c.placesAt s).map Location.clipped)).1 = c₁.table.next := by
    rw [SymbolTable.ask_of_none hnone]
  rw [hanswer, (placesAt_of_answers hnew (hlike.generic?_eq_none hplain')).2, hlike.places_eq,
    Shape.places_recorded, Shape.places_map, ← (placesAt_of_answers hanswers hgeneric).2]

end Rebuilt

end Key
end Moniker
