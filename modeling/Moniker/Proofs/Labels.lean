import Moniker.Proofs.Finding
import Moniker.Proofs.Standing

/-!
# Labels

A type that is built from other types is told apart by those and by its label, which is everything
else that keys say about it. In a compilation that is `Rebuildable` asking for the label and the
parts of a type answers that type (`Compilation.Rebuildable.lookup`), and goes on to do so in every
later state.
-/

namespace Moniker

/-- What goes into a built type besides the types that it is made of. -/
inductive Label where
  | array (rank : UInt64)
  | pointer
  | constructed (definition : SymbolId)
  | tuple (names : List (Option String))
  | anonymous (names : List String) (readOnly : List Bool)
  deriving Repr, DecidableEq

namespace Label

/-- The shape of a type with the label that is made of the parts. -/
def shape (parts : List SymbolId) : Label → Shape
  | array rank => .array (parts.headD ⟨0⟩) rank
  | pointer => .pointer (parts.headD ⟨0⟩)
  | constructed definition => .constructed definition parts
  | tuple names => .tuple parts names
  | anonymous names readOnly => .anonymous parts names readOnly

/-- A label that keys can hold, with as many parts as it takes. Names of elements are absent rather
than empty. -/
def Admits (parts : List SymbolId) : Label → Prop
  | array _ | pointer => parts.length = 1
  | tuple names => some "" ∉ names
  | constructed _ | anonymous _ _ => True

end Label

namespace Compilation

variable {c c' : Compilation} {s a : SymbolId} {l : Label} {items : List SymbolId}

/-- The label of a type that is built from others. -/
def labelAt (c : Compilation) (s : SymbolId) : Option Label :=
  match (c.entry s).kind with
  | .namedType => (c.entry s).definition.map .constructed
  | .arrayType => some (.array (c.entry s).rank)
  | .pointerType => some .pointer
  | .tupleType => some (.tuple (c.elementNamesAt s))
  | .anonymousType => some (.anonymous (c.propertyNamesAt s) (c.readOnlyAt s))
  | _ => none

/-! ## Labels of symbols -/

theorem labelAt_array (hkind : (c.entry s).kind = .arrayType) :
    c.labelAt s = some (.array (c.entry s).rank) := by
  rw [labelAt, hkind]

theorem labelAt_pointer (hkind : (c.entry s).kind = .pointerType) :
    c.labelAt s = some .pointer := by
  rw [labelAt, hkind]

theorem labelAt_tuple (hkind : (c.entry s).kind = .tupleType) :
    c.labelAt s = some (.tuple (c.elementNamesAt s)) := by
  rw [labelAt, hkind]

theorem labelAt_anonymous (hkind : (c.entry s).kind = .anonymousType) :
    c.labelAt s = some (.anonymous (c.propertyNamesAt s) (c.readOnlyAt s)) := by
  rw [labelAt, hkind]

theorem labelAt_constructed (hkind : (c.entry s).kind = .namedType) {g : SymbolId}
    (hdefinition : (c.entry s).definition = some g) : c.labelAt s = some (.constructed g) := by
  rw [labelAt, hkind, hdefinition]
  rfl

theorem labelAt_definition (hkind : (c.entry s).kind = .namedType)
    (hdefinition : (c.entry s).definition = none) : c.labelAt s = none := by
  rw [labelAt, hkind, hdefinition]
  rfl

/-- Only types are built from others. -/
theorem labelAt_declared (hspace : (c.entry s).kind ≠ .namedType)
    (hshape : (c.entry s).kind.isStructural = false) : c.labelAt s = none := by
  unfold labelAt
  cases hkind : (c.entry s).kind
  all_goals
    first
    | rfl
    | exact absurd hkind hspace
    | rw [hkind] at hshape; cases hshape

theorem not_mem_elementNamesAt : some "" ∉ c.elementNamesAt s := by
  intro hmem
  obtain ⟨m, -, hname⟩ := List.mem_map.mp hmem
  split at hname
  · cases hname
  · next hsome =>
      rw [Option.some.injEq] at hname
      rw [hname] at hsome
      exact hsome rfl

/-- The names of elements stand as they were given, unless empty names were. -/
theorem elementNamesAt_of_embodies {types : List SymbolId} {names : List (Option String)}
    (hembodies : c.table.Embodies s (.tuple types names)) (hnames : some "" ∉ names) :
    c.elementNamesAt s = names := by
  rw [elementNamesAt_tuple hembodies]
  refine (List.map_congr_left fun name hname => ?_).trans (List.map_id names)
  cases name with
  | none => rfl
  | some name =>
      have hne : name ≠ "" := fun h => hnames (h ▸ hname)
      simp [hne]

theorem Lawful.partsAt_tuple (h : c.Lawful) {types : List SymbolId} {names : List (Option String)}
    (hembodies : c.table.Embodies s (.tuple types names)) : c.partsAt s = types := by
  rw [Compilation.partsAt_tuple hembodies.1, h.memberTypesAt_tuple hembodies]

theorem Lawful.partsAt_anonymous (h : c.Lawful) {types : List SymbolId} {names : List String}
    {readOnly : List Bool} (hembodies : c.table.Embodies s (.anonymous types names readOnly)) :
    c.partsAt s = types := by
  rw [Compilation.partsAt_anonymous hembodies.1, h.memberTypesAt_anonymous hembodies]

/-- What answers a shape has its label and its parts. -/
theorem Lawful.label_of_lookup (h : c.Lawful) (hadmits : l.Admits items)
    (hlookup : c.table.interned.lookup (l.shape items) = some s) :
    c.labelAt s = some l ∧ c.partsAt s = items := by
  have hembodies := h.table.embodied _ _ hlookup
  cases l with
  | array rank =>
      obtain ⟨t, rfl⟩ := List.length_eq_one_iff.mp hadmits
      rw [labelAt_array hembodies.1, partsAt_array hembodies.1, h.typeAt_array hembodies,
        show (c.entry s).rank = rank from hembodies.2.2.1]
      exact ⟨rfl, rfl⟩
  | pointer =>
      obtain ⟨t, rfl⟩ := List.length_eq_one_iff.mp hadmits
      rw [labelAt_pointer hembodies.1, partsAt_pointer hembodies.1, h.typeAt_pointer hembodies]
      exact ⟨rfl, rfl⟩
  | constructed g =>
      rw [labelAt_constructed hembodies.1 hembodies.2.1,
        partsAt_constructed hembodies.1 hembodies.2.1]
      exact ⟨rfl, hembodies.2.2.1⟩
  | tuple names =>
      rw [labelAt_tuple hembodies.1, h.partsAt_tuple hembodies,
        elementNamesAt_of_embodies hembodies hadmits]
      exact ⟨rfl, rfl⟩
  | anonymous names readOnly =>
      rw [labelAt_anonymous hembodies.1, h.partsAt_anonymous hembodies,
        propertyNamesAt_anonymous hembodies, readOnlyAt_anonymous hembodies]
      exact ⟨rfl, rfl⟩

/-- The label of a type goes with as many parts as the type has. -/
theorem admits_of_labelAt (hlabel : c.labelAt s = some l)
    (hlength : items.length = (c.partsAt s).length) : l.Admits items := by
  unfold labelAt at hlabel
  cases hkind : (c.entry s).kind <;> rw [hkind] at hlabel <;> try cases hlabel
  · obtain ⟨g, -, rfl⟩ := Option.map_eq_some_iff.mp hlabel
    trivial
  · rw [partsAt_array hkind] at hlength
    exact hlength
  · rw [partsAt_pointer hkind] at hlength
    exact hlength
  · exact not_mem_elementNamesAt
  · trivial

/-! ## Types that keys hold enough of -/

/-- Keys hold enough of the structural types of the compilation for it to build them again: names of
elements are absent rather than empty, ranks fit frames, members lie in files of the compilation,
and anonymous types keep to the cap on them. -/
structure Rebuildable (c : Compilation) : Prop where
  named : ∀ types names s, c.table.interned.lookup (.tuple types names) = some s → some "" ∉ names
  ranked : ∀ s, c.Issued s → (c.entry s).rank.toNat ≤ Frame.maxCount
  located : ∀ s, c.Issued s → (c.entry s).kind.isStructural = true → ∀ m ∈ (c.entry s).members,
    ∀ path span, c.locationAt m = .source path span → path ∈ c.files
  capped : ∀ s, c.Issued s → (c.entry s).kind = .anonymousType → ∀ n,
    c.table.maxAnonymousArity = some n → (c.entry s).members.length ≤ n

namespace Rebuildable

variable (hr : c.Rebuildable)
include hr

/-- A built type answers to its label and its parts. -/
theorem lookup (h : c.Lawful) (hs : c.Issued s) (hlabel : c.labelAt s = some l) :
    c.table.interned.lookup (l.shape (c.partsAt s)) = some s := by
  unfold labelAt at hlabel
  cases hkind : (c.entry s).kind <;> rw [hkind] at hlabel <;> try cases hlabel
  · obtain ⟨g, hdefinition, rfl⟩ := Option.map_eq_some_iff.mp hlabel
    rw [partsAt_constructed hkind hdefinition]
    exact (h.table.exists_constructed hs hdefinition).1
  · obtain ⟨element, rank, hlookup, hembodies⟩ := h.table.exists_array hs hkind
    rw [partsAt_array hkind, h.typeAt_array hembodies,
      show (c.entry s).rank = rank from hembodies.2.2.1]
    exact hlookup
  · obtain ⟨pointee, hlookup, hembodies⟩ := h.table.exists_pointer hs hkind
    rw [partsAt_pointer hkind, h.typeAt_pointer hembodies]
    exact hlookup
  · obtain ⟨types, names, hlookup, hembodies⟩ := h.table.exists_tuple hs hkind
    rw [h.partsAt_tuple hembodies, elementNamesAt_of_embodies hembodies (hr.named _ _ _ hlookup)]
    exact hlookup
  · obtain ⟨types, names, readOnly, hlookup, hembodies⟩ := h.table.exists_anonymous hs hkind
    rw [h.partsAt_anonymous hembodies, propertyNamesAt_anonymous hembodies,
      readOnlyAt_anonymous hembodies]
    exact hlookup

/-- The rank that a frame holds is the rank of the type. -/
theorem rank_eq (hs : c.Issued s) :
    UInt64.ofNat (min (c.entry s).rank.toNat Frame.maxCount) = (c.entry s).rank := by
  rw [Nat.min_eq_left (hr.ranked s hs), UInt64.ofNat_toNat]

/-- The members of a structural type lie in files of the compilation, also as frames hold it. -/
theorem accepts (hgrows : c.Grows c') (hs : c.Issued s)
    (hkind : (c.entry s).kind.isStructural = true) (kind : SymbolKind) :
    c'.AcceptsAll (c.memberLocationsAt kind s) := by
  intro l hl
  obtain ⟨m, hm, rfl⟩ := List.mem_map.mp hl
  have hm := membersAt_subset hm
  cases hlocation : c.locationAt m with
  | nowhere => rfl
  | source path span =>
      have hpath : path ∈ c'.files := by
        rw [hgrows.files]
        exact hr.located s hs hkind m hm path span hlocation
      simp only [Location.clipped, accept, containsFile, hpath, decide_true, if_true]

/-- A tuple of as many other types would be built under the same names. -/
theorem checkTuple (h : c.Lawful) (hs : c.Issued s) (hkind : (c.entry s).kind = .tupleType)
    (hlength : items.length = (c.memberTypesAt .field s).length) :
    SymbolTable.checkTuple items (c.elementNamesAt s) (c.memberLocationsAt .field s) = .ok () := by
  obtain ⟨types, names, hlookup, hembodies⟩ := h.table.exists_tuple hs hkind
  obtain ⟨locations, hcheck⟩ := hembodies.2.2.2.2.2
  have htypes := h.memberTypesAt_tuple hembodies
  rw [elementNamesAt_of_embodies hembodies (hr.named _ _ _ hlookup)]
  exact SymbolTable.checkTuple_congr hcheck (by rw [hlength, htypes])
    (by rw [length_memberLocationsAt, htypes])

/-- An anonymous type of as many other types would be built under the same names. -/
theorem checkAnonymous (h : c.Lawful) (hs : c.Issued s) (hkind : (c.entry s).kind = .anonymousType)
    (hgrows : c.Grows c') (hlength : items.length = (c.memberTypesAt .property s).length) :
    SymbolTable.checkAnonymous c'.table.maxAnonymousArity items (c.propertyNamesAt s)
      (c.readOnlyAt s)
      (c.memberLocationsAt .property s) = .ok () := by
  obtain ⟨types, names, readOnly, -, hembodies⟩ := h.table.exists_anonymous hs hkind
  obtain ⟨locations, hcheck⟩ := hembodies.2.2.2.2.2.2
  have htypes := h.memberTypesAt_anonymous hembodies
  rw [hgrows.table.limit, propertyNamesAt_anonymous hembodies, readOnlyAt_anonymous hembodies]
  refine SymbolTable.checkAnonymous_congr hcheck (fun n hn => ?_) (by rw [hlength, htypes])
    (by rw [length_memberLocationsAt, htypes])
  rw [← (length_anonymous hembodies).2.2]
  exact hr.capped s hs hkind n hn

end Rebuildable

/-! ## What later states leave alone -/

section Later

variable (h : c.Grows c') (hclosed : c.Closed) (hs : c.Issued s)
include h hclosed hs

theorem Grows.labelAt : c'.labelAt s = c.labelAt s := by
  rw [Compilation.labelAt, Compilation.labelAt, h.entry hs, h.elementNamesAt hclosed hs,
    h.propertyNamesAt hclosed hs, h.readOnlyAt hclosed hs]

theorem Grows.partsAt : c'.partsAt s = c.partsAt s := by
  rw [Compilation.partsAt, Compilation.partsAt, h.entry hs, h.typeAt hs,
    h.memberTypesAt hclosed hs, h.memberTypesAt hclosed hs]

end Later

end Compilation
end Moniker
